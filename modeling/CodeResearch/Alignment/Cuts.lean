import CodeResearch.Alignment.Resume

/-!
# Runs that are cut off

From every state that a spared cut leaves, the program of the status leads back to the
result of a run that was never cut off.
-/
namespace CodeResearch.Alignment

open DomainJobs (AlignmentStatus)

namespace LawfulStages

variable (g : LawfulStages)

/-- How many stages are complete when a status is entered. -/
def level : AlignmentStatus → ℕ
  | .recalling => 1
  | .featurizing => 2
  | .scoring => 3
  | .verifying | .active => 4
  | .queued | .profiling | .ready | .failed | .superseded | .cancelled => 0

/-- The rows of the first `k` stages are stored. -/
structure Stored (k : ℕ) (s : RunRecord) : Prop where
  cancel : s.cancelRequested = false
  verifications : g.verifierEnabled = false → s.verifications = []
  profiles : 1 ≤ k → s.profiles.Perm g.profiles
  candidates : 2 ≤ k → s.candidates.Perm g.allCandidates
  features : 3 ≤ k → s.features.Perm g.allFeatures
  scores : 4 ≤ k → s.scores.Perm g.allScores

/-- A store that a run can be resumed from. -/
structure Recoverable (s : RunRecord) : Prop where
  live : s.status ∈ [AlignmentStatus.queued, .profiling, .recalling, .featurizing, .scoring,
    .verifying, .active]
  stored : g.Stored (level s.status) s
  decisions : s.status ∈ [AlignmentStatus.verifying, .active] →
    s.decisions.Perm (g.profiles.map g.scorerDecision) ∨ s.decisions.Perm g.finalDecisions
  settled : s.status = .active →
    s.decisions.Perm g.finalDecisions ∧ s.verifications.Perm g.finalVerifications

/-- The variables of the first `k` stages. -/
structure Known (k : ℕ) (l : Locals) : Prop where
  profiles : 1 ≤ k → l.profiles.Perm g.profiles
  candidates : 2 ≤ k → l.candidates.Perm g.allCandidates
  order : 2 ≤ k → g.verifierEnabled = true →
    ∀ p ∈ g.profiles, g.FallsBack p → Stages.candidatesOf l p = g.candidates p
  features : 3 ≤ k → l.features.Perm g.allFeatures
  scores : 4 ≤ k → l.scores.Perm g.allScores

def AsksScorer (asked : List AlignmentDecision) : Prop := ∀ d ∈ asked, d.decisionSource = .scorer

/-- The call returns with the result of the run, and a cut on its way can be recovered. -/
inductive Leads : Resumption → Prop
  | returned {x : Resumption} (hops : x.process.ops = []) (hactive : x.store.status = .active)
      (hstore : g.Recoverable x.store) (hasked : AsksScorer x.asked) : Leads x
  | step {x : Resumption} (hops : x.process.ops ≠ []) (hstore : g.Recoverable x.store)
      (hasked : AsksScorer x.asked) (h : Leads (x.advance g.toStages)) : Leads x

variable {g} {s : RunRecord} {l l' : Locals} {asked : List AlignmentDecision} {rest : List Op}

variable {x : Resumption} {stage : AlignmentStatus}

theorem Leads.recoverable (h : g.Leads x) : g.Recoverable x.store ∧ AsksScorer x.asked := by
  cases h with
  | returned _ _ hstore hasked => exact ⟨hstore, hasked⟩
  | step _ hstore hasked _ => exact ⟨hstore, hasked⟩

theorem Stored.mono {k k' : ℕ} (h : g.Stored k' s) (hk : k ≤ k') : g.Stored k s :=
  ⟨h.cancel, h.verifications, fun h' => h.profiles (h'.trans hk),
    fun h' => h.candidates (h'.trans hk), fun h' => h.features (h'.trans hk),
    fun h' => h.scores (h'.trans hk)⟩

theorem recoverable_of_stored (h : g.Stored (level s.status) s) (hstatus : s.status ∈
    [AlignmentStatus.queued, .profiling, .recalling, .featurizing, .scoring]) :
    g.Recoverable s := by
  refine ⟨?_, h, ?_, ?_⟩
  · simp only [List.mem_cons, List.not_mem_nil, or_false] at hstatus ⊢
    tauto
  · intro hlate
    exfalso
    simp only [List.mem_cons, List.not_mem_nil, or_false] at hstatus hlate
    rcases hlate with hlate | hlate <;> simp [hlate] at hstatus
  · intro hactive
    simp [hactive] at hstatus

section Blocks

variable (hs : g.Recoverable s) (hasked : AsksScorer asked)

include hs hasked in
theorem leads_guard (stage : AlignmentStatus) (h : g.Leads ⟨s, ⟨none, rest, l⟩, asked⟩) :
    g.Leads ⟨s, ⟨none, commitGuard stage ++ rest, l⟩, asked⟩ := by
  have hcancel := hs.stored.cancel
  apply Leads.step (List.cons_ne_nil _ _) hs hasked
  apply Leads.step (List.cons_ne_nil _ _) hs
  · simpa [Resumption.advance, commitGuard] using hasked
  · simpa [Resumption.advance, Process.advance, Process.continueWith, commitGuard, hcancel] using h

include hs hasked in
theorem leads_load {table : StageTable}
    (h : g.Leads ⟨s, ⟨none, rest, g.load s l table⟩, asked⟩) :
    g.Leads ⟨s, ⟨none, .load table :: rest, l⟩, asked⟩ := by
  apply Leads.step (List.cons_ne_nil _ _) hs hasked
  simpa [Resumption.advance, Process.advance, Process.continueWith] using h

include hs hasked in
theorem leads_replay {stage allowed : AlignmentStatus} {table : StageTable}
    (hstatus : s.status = allowed) (hentered : g.Recoverable { s with status := stage })
    (hasks : AsksScorer (Resumption.asks g.toStages l table))
    (hcompute : g.compute l table = some l')
    (h : g.Leads ⟨Stages.save { s with status := stage } l' table, ⟨none, rest, l'⟩,
      asked ++ Resumption.asks g.toStages l table⟩) :
    g.Leads ⟨s, ⟨none, replayStage stage allowed table ++ rest, l⟩, asked⟩ := by
  have hasked' : AsksScorer (asked ++ Resumption.asks g.toStages l table) :=
    List.forall_mem_append.mpr ⟨hasked, hasks⟩
  have hsaved : g.Leads ⟨{ s with status := stage }, ⟨none, .save table :: rest, l'⟩,
      asked ++ Resumption.asks g.toStages l table⟩ := by
    apply Leads.step (List.cons_ne_nil _ _) hentered hasked'
    simpa [Resumption.advance, Process.advance, Process.continueWith] using h
  have hguarded := leads_guard hentered hasked' stage hsaved
  have hcomputed : g.Leads ⟨{ s with status := stage },
      ⟨none, .compute table :: (commitGuard stage ++ .save table :: rest), l⟩, asked⟩ := by
    apply Leads.step (List.cons_ne_nil _ _) hentered hasked
    simpa [Resumption.advance, Process.advance, Process.continueWith, hcompute] using hguarded
  apply Leads.step (List.cons_ne_nil _ _) hs hasked
  simpa [Resumption.advance, Process.advance, Process.continueWith, replayStage, hstatus] using
    hcomputed

end Blocks

theorem length_decisions (hprofiles : s.profiles.Perm g.profiles)
    (hdecisions : s.decisions.Perm g.finalDecisions) : s.profiles.length = s.decisions.length := by
  rw [hprofiles.length_eq, hdecisions.length_eq]
  unfold finalDecisions
  split_ifs <;> simp

theorem leads_activate (hs : g.Recoverable s) (hasked : AsksScorer asked)
    (hstatus : s.status ∈ [AlignmentStatus.scoring, .verifying]) (hstored : g.Stored 4 s)
    (hdecisions : s.decisions.Perm g.finalDecisions)
    (hverifications : s.verifications.Perm g.finalVerifications) :
    g.Leads ⟨s, ⟨none, [.activate, .release], l⟩, asked⟩ := by
  have hlength := length_decisions (hstored.profiles (by decide)) hdecisions
  have hready : s.status ∈ [AlignmentStatus.scoring, .verifying, .ready] := by
    simp only [List.mem_cons, List.not_mem_nil, or_false] at hstatus ⊢
    tauto
  have hactive : g.Recoverable { s with status := .active } :=
    { live := by simp
      stored := ⟨hstored.cancel, hstored.verifications, hstored.profiles, hstored.candidates,
        hstored.features, hstored.scores⟩
      decisions := fun _ => .inr hdecisions
      settled := fun _ => ⟨hdecisions, hverifications⟩ }
  have hreturned : g.Leads ⟨{ s with status := .active }, ⟨none, [], l⟩, asked⟩ :=
    .returned rfl rfl hactive hasked
  have hrelease : g.Leads ⟨{ s with status := .active }, ⟨none, [.release], l⟩, asked⟩ := by
    apply Leads.step (List.cons_ne_nil _ _) hactive hasked
    simpa [Resumption.advance, Process.advance, Process.continueWith, RunRecord.Held] using hreturned
  apply Leads.step (List.cons_ne_nil _ _) hs hasked
  simpa [Resumption.advance, Process.advance, Process.continueWith, hready, hlength] using hrelease

/-- A run that is active already is not activated again. -/
theorem leads_active (hs : g.Recoverable s) (hasked : AsksScorer asked)
    (hstatus : s.status = .active) : g.Leads ⟨s, ⟨none, [.activate, .release], l⟩, asked⟩ := by
  have hreturned : g.Leads ⟨s, ⟨none, [], l⟩, asked⟩ := .returned rfl hstatus hs hasked
  have hrelease : g.Leads ⟨s, ⟨none, [.release], l⟩, asked⟩ := by
    apply Leads.step (List.cons_ne_nil _ _) hs hasked
    simpa [Resumption.advance, Process.advance, Process.continueWith, RunRecord.Held] using hreturned
  have hfailed : g.Leads ⟨s, ⟨none, [.markFailed, .release], l⟩, asked⟩ := by
    apply Leads.step (List.cons_ne_nil _ _) hs hasked
    simpa [Resumption.advance, Process.advance, Process.continueWith, hstatus, TerminalStatus] using
      hrelease
  apply Leads.step (List.cons_ne_nil _ _) hs hasked
  simpa [Resumption.advance, Process.advance, Process.continueWith, Process.raiseStoreError, hstatus]
    using hfailed

theorem asks_scorer (hdecisions : l.decisions.Perm (g.profiles.map g.scorerDecision))
    (table : StageTable) : AsksScorer (Resumption.asks g.toStages l table) := by
  intro d hd
  unfold Resumption.asks at hd
  split_ifs at hd
  · obtain ⟨p, _, rfl⟩ := List.mem_map.mp (hdecisions.mem_iff.mp hd)
    exact decisionSource_buildProfileDecision p _ _
  · cases hd

/-- The verifier and the activation, once the scorer decided. -/
theorem leads_finish (hs : g.Recoverable s) (hasked : AsksScorer asked) (hstatus : s.status = stage)
    (hstage : stage ∈ [AlignmentStatus.scoring, .verifying, .active]) (hstored : g.Stored 4 s)
    (hdecisions : s.decisions.Perm (g.profiles.map g.scorerDecision)) (hknown : g.Known 4 l)
    (hown : l.decisions.Perm (g.profiles.map g.scorerDecision)) :
    g.Leads ⟨s, ⟨none, finishFrom g.verifierEnabled stage, l⟩, asked⟩ := by
  unfold finishFrom
  cases henabled : g.verifierEnabled with
  | false =>
    have hfinal : g.finalDecisions = g.profiles.map g.scorerDecision := by
      simp [finalDecisions, henabled]
    have hnone : s.verifications.Perm g.finalVerifications := by
      simp [finalVerifications, henabled, hstored.verifications henabled]
    simp only [Bool.false_eq_true, if_false]
    apply leads_guard hs hasked stage
    by_cases hactive : stage = .active
    · exact leads_active hs hasked (hstatus.trans hactive)
    · refine leads_activate hs hasked ?_ hstored (hfinal ▸ hdecisions) hnone
      simp only [List.mem_cons, List.not_mem_nil, or_false] at hstage ⊢
      rw [hstatus]
      tauto
  | true =>
    obtain ⟨results, hverify, hresults⟩ := verify_perm (hknown.profiles (by decide))
      (hknown.candidates (by decide)) (hknown.scores (by decide)) hown
      (hknown.order (by decide) henabled)
    have hcompute : g.compute l .finals = some { l with
        finals := results.map Prod.fst, verifications := results.map Prod.snd } := by
      simp [Stages.compute, hverify]
    have hfinals : (results.map Prod.fst).Perm g.finalDecisions := by
      simpa [finalDecisions, henabled, List.map_map, Function.comp_def] using hresults.map Prod.fst
    have hverifications : (results.map Prod.snd).Perm g.finalVerifications := by
      simpa [finalVerifications, henabled, List.map_map, Function.comp_def] using
        hresults.map Prod.snd
    have hfull : ∀ {decisions verifications}, g.Stored 4
        { s with status := .verifying, decisions, verifications } :=
      ⟨hstored.cancel, by simp [henabled], hstored.profiles, hstored.candidates, hstored.features,
        hstored.scores⟩
    have hverifying : ∀ {decisions verifications},
        decisions.Perm (g.profiles.map g.scorerDecision) ∨ decisions.Perm g.finalDecisions →
        g.Recoverable { s with status := .verifying, decisions, verifications } :=
      fun hd => ⟨by simp, hfull, fun _ => hd, by simp⟩
    simp only [if_true]
    unfold verifyStage
    rw [List.append_assoc, List.append_assoc, List.singleton_append]
    have hasks := asks_scorer hown .finals
    refine leads_replay hs hasked hstatus (hverifying (.inl hdecisions)) hasks hcompute ?_
    -- the final decisions are saved before their verifications
    have hasked' : AsksScorer (asked ++ Resumption.asks g.toStages l .finals) :=
      List.forall_mem_append.mpr ⟨hasked, hasks⟩
    apply Leads.step (List.cons_ne_nil _ _) (hverifying (.inr hfinals)) hasked'
    have hactivate := leads_activate (l := { l with
        finals := results.map Prod.fst, verifications := results.map Prod.snd }) (hverifying (.inr hfinals)) hasked' (by simp) hfull hfinals
      hverifications
    have hguarded := leads_guard (hverifying (.inr hfinals)) hasked' .verifying hactivate
    simpa [Resumption.advance, Process.advance, Process.continueWith, Stages.save] using hguarded

theorem leads_scoring (hs : g.Recoverable s) (hasked : AsksScorer asked)
    (hstatus : s.status = stage) (hstored : g.Stored 3 s) (hknown : g.Known 3 l) :
    g.Leads ⟨s, ⟨none, scoringFrom g.verifierEnabled stage, l⟩, asked⟩ := by
  have hscores : (l.features.map g.score).Perm g.allScores := (hknown.features le_rfl).map _
  have hknown' : g.Known 4 { l with scores := l.features.map g.score } :=
    ⟨fun _ => hknown.profiles (by decide), fun _ => hknown.candidates (by decide),
      fun _ => hknown.order (by decide), fun _ => hknown.features le_rfl, fun _ => hscores⟩
  have hdecisions := decisions_perm (hknown'.profiles (by decide)) (hknown'.candidates (by decide))
    hscores
  have hfull : ∀ {decisions}, g.Stored 4
      { s with status := .scoring, scores := l.features.map g.score, decisions } :=
    ⟨hstored.cancel, hstored.verifications, fun _ => hstored.profiles (by decide),
      fun _ => hstored.candidates (by decide), fun _ => hstored.features le_rfl, fun _ => hscores⟩
  have hscored : ∀ {decisions}, g.Recoverable
      { s with status := .scoring, scores := l.features.map g.score, decisions } :=
    recoverable_of_stored (hfull.mono (by simp [level])) (by simp)
  have hentered : g.Recoverable { s with status := .scoring } := by
    refine recoverable_of_stored ?_ (by simp)
    exact ⟨hstored.cancel, hstored.verifications, fun _ => hstored.profiles (by decide),
      fun _ => hstored.candidates (by decide), fun _ => hstored.features le_rfl, by simp [level]⟩
  unfold scoringFrom
  simp only [List.append_assoc, List.singleton_append]
  refine leads_replay hs hasked hstatus hentered (by simp [Resumption.asks, AsksScorer]) rfl ?_
  simp only [Resumption.asks, reduceCtorEq, false_and, if_false, List.append_nil]
  -- the decisions are computed and saved under the same status
  have hfinish := leads_finish hscored hasked rfl (by simp) hfull hdecisions
    (l := { l with
      scores := l.features.map g.score
      decisions := l.profiles.map fun p => buildProfileDecision g.ids p
        (Stages.candidatesOf { l with scores := l.features.map g.score } p)
        (Stages.scoresOf { l with scores := l.features.map g.score } p) })
    ⟨hknown'.profiles, hknown'.candidates, hknown'.order, hknown'.features, hknown'.scores⟩ hdecisions
  apply Leads.step (List.cons_ne_nil _ _) hscored hasked
  have hsaved : g.Leads ⟨{ s with status := .scoring, scores := l.features.map g.score },
      ⟨none, .save .decisions :: finishFrom g.verifierEnabled .scoring, { l with
        scores := l.features.map g.score
        decisions := l.profiles.map fun p => buildProfileDecision g.ids p
          (Stages.candidatesOf { l with scores := l.features.map g.score } p)
          (Stages.scoresOf { l with scores := l.features.map g.score } p) }⟩, asked⟩ := by
    apply Leads.step (List.cons_ne_nil _ _) hscored hasked
    simpa [Resumption.advance, Process.advance, Process.continueWith, Stages.save] using hfinish
  have hguarded := leads_guard hscored hasked .scoring hsaved
  simpa [Resumption.advance, Process.advance, Process.continueWith, Stages.save, Stages.compute,
    Resumption.asks] using hguarded

theorem leads_featurizing (hs : g.Recoverable s)
    (hasked : AsksScorer asked) (hstatus : s.status = stage) (hstored : g.Stored 2 s)
    (hknown : g.Known 2 l) :
    g.Leads ⟨s, ⟨none, featurizingFrom g.verifierEnabled stage, l⟩, asked⟩ := by
  obtain ⟨features, hcompute, hfeatures⟩ := featuresOf_perm (hknown.profiles (by decide))
    (hknown.candidates le_rfl)
  have hknown' : g.Known 3 { l with features } :=
    ⟨fun _ => hknown.profiles (by decide), fun _ => hknown.candidates le_rfl,
      fun _ => hknown.order le_rfl, fun _ => hfeatures, by simp⟩
  have hentered : ∀ {features}, g.Recoverable { s with status := .featurizing, features } := by
    intro features
    refine recoverable_of_stored ?_ (by simp)
    exact ⟨hstored.cancel, hstored.verifications, fun _ => hstored.profiles (by decide),
      fun _ => hstored.candidates le_rfl, by simp [level], by simp [level]⟩
  have hsaved : g.Stored 3 { s with status := .featurizing, features } :=
    ⟨hstored.cancel, hstored.verifications, fun _ => hstored.profiles (by decide),
      fun _ => hstored.candidates le_rfl, fun _ => hfeatures, by simp⟩
  have hcomputed : g.compute l .features = some { l with features } := by
    simp [Stages.compute, hcompute]
  unfold featurizingFrom
  refine leads_replay hs hasked hstatus hentered (by simp [Resumption.asks, AsksScorer]) hcomputed ?_
  simp only [Resumption.asks, reduceCtorEq, false_and, if_false, List.append_nil]
  exact leads_scoring hentered hasked rfl hsaved hknown'

theorem leads_recalling (hs : g.Recoverable s)
    (hasked : AsksScorer asked) (hstatus : s.status = stage) (hstored : g.Stored 1 s)
    (hknown : g.Known 1 l) :
    g.Leads ⟨s, ⟨none, recallingFrom g.verifierEnabled stage, l⟩, asked⟩ := by
  have hprofiles := hknown.profiles le_rfl
  have hcandidates : (l.profiles.flatMap g.candidates).Perm g.allCandidates :=
    hprofiles.flatMap_right _
  have hknown' : g.Known 2 { l with candidates := l.profiles.flatMap g.candidates } :=
    ⟨fun _ => hprofiles, fun _ => hcandidates,
      fun _ _ p hp _ => candidatesOf_generated hprofiles rfl hp, by simp, by simp⟩
  have hentered : ∀ {candidates features scores}, g.Recoverable
      { s with status := .recalling, candidates, features, scores } := by
    intro candidates features scores
    refine recoverable_of_stored ?_ (by simp)
    exact ⟨hstored.cancel, hstored.verifications, fun _ => hstored.profiles le_rfl,
      by simp [level], by simp [level], by simp [level]⟩
  have hsaved : g.Stored 2 { s with
      status := .recalling, candidates := l.profiles.flatMap g.candidates, features := [],
      scores := [] } :=
    ⟨hstored.cancel, hstored.verifications, fun _ => hstored.profiles le_rfl,
      fun _ => hcandidates, by simp, by simp⟩
  unfold recallingFrom
  refine leads_replay hs hasked hstatus hentered (by simp [Resumption.asks, AsksScorer]) rfl ?_
  simp only [Resumption.asks, reduceCtorEq, false_and, if_false, List.append_nil]
  exact leads_featurizing hentered hasked rfl hsaved hknown'

theorem leads_profiling (hs : g.Recoverable s)
    (hasked : AsksScorer asked) (hstatus : s.status = stage) :
    g.Leads ⟨s, ⟨none, replayStage .profiling stage .profiles ++
      recallingFrom g.verifierEnabled .profiling, l⟩, asked⟩ := by
  have hentered : ∀ {profiles candidates features scores decisions}, g.Recoverable
      { s with status := .profiling, profiles, candidates, features, scores, decisions } := by
    intro profiles candidates features scores decisions
    refine recoverable_of_stored ?_ (by simp)
    exact ⟨hs.stored.cancel, hs.stored.verifications, by simp [level], by simp [level],
      by simp [level], by simp [level]⟩
  have hsaved : g.Stored 1 { s with
      status := .profiling, profiles := g.profiles, candidates := [], features := [],
      scores := [], decisions := [] } :=
    ⟨hs.stored.cancel, hs.stored.verifications, fun _ => List.Perm.refl _, by simp, by simp, by simp⟩
  refine leads_replay hs hasked hstatus hentered (by simp [Resumption.asks, AsksScorer]) rfl ?_
  simp only [Resumption.asks, reduceCtorEq, false_and, if_false, List.append_nil]
  exact leads_recalling hentered hasked rfl hsaved
    ⟨fun _ => List.Perm.refl _, by simp, by simp, by simp, by simp⟩

theorem Known.load_profiles (h : g.Stored 1 s) : g.Known 1 (g.load s l .profiles) :=
  ⟨fun _ => (perm_byText _ _).trans (h.profiles le_rfl), by simp, by simp, by simp, by simp⟩

theorem Known.load_candidates (hl : g.Known 1 l) (h : g.Stored 2 s)
    (horder : g.verifierEnabled = true → ∀ p ∈ g.profiles, g.FallsBack p →
      byText g.candidateJson (g.candidates p) = g.candidates p) :
    g.Known 2 (g.load s l .candidates) :=
  ⟨fun _ => hl.profiles le_rfl, fun _ => (perm_byText _ _).trans (h.candidates le_rfl),
    fun _ henabled p hp hfalls =>
      (candidatesOf_loaded (h.candidates le_rfl) rfl hp).trans (horder henabled p hp hfalls),
    by simp, by simp⟩

theorem Known.load_features (hl : g.Known 2 l) (h : g.Stored 3 s) :
    g.Known 3 (g.load s l .features) :=
  ⟨fun _ => hl.profiles (by decide), fun _ => hl.candidates le_rfl, fun _ => hl.order le_rfl,
    fun _ => (perm_byText _ _).trans (h.features le_rfl), by simp⟩

theorem Known.load_scores (hl : g.Known 3 l) (h : g.Stored 4 s) :
    g.Known 4 (g.load s l .scores) :=
  ⟨fun _ => hl.profiles (by decide), fun _ => hl.candidates (by decide),
    fun _ => hl.order (by decide), fun _ => hl.features le_rfl,
    fun _ => (perm_byText _ _).trans (h.scores le_rfl)⟩

theorem Known.load_decisions (hl : g.Known 4 l) : g.Known 4 (g.load s l .decisions) :=
  ⟨hl.profiles, hl.candidates, hl.order, hl.features, hl.scores⟩

/-- Decisions that the verifier did not make are those of the scorer. -/
theorem decisions_of_source (hdecisions : s.decisions.Perm (g.profiles.map g.scorerDecision) ∨
      s.decisions.Perm g.finalDecisions)
    (hsource : ∀ d ∈ s.decisions, d.decisionSource = .scorer) :
    s.decisions.Perm (g.profiles.map g.scorerDecision) := by
  rcases hdecisions with h | h
  · exact h
  have hsame : g.finalDecisions = g.profiles.map g.scorerDecision := by
    unfold finalDecisions at h ⊢
    split_ifs at h ⊢
    · apply List.map_congr_left
      intro p hp
      have hown := hsource _ (h.mem_iff.mpr (List.mem_map_of_mem hp))
      unfold verified verifyProfile at hown ⊢
      split at hown
      · unfold applyVerifierDecision at hown
        dsimp only at hown
        split_ifs at hown
      · rfl
    · rfl
  exact hsame ▸ h

theorem leads_loaded (hs : g.Recoverable s) (hasked : AsksScorer asked)
    (hstatus : s.status = stage) (hstage : stage ∈ [AlignmentStatus.verifying, .active])
    (hstored : g.Stored 4 s) (hsource : ∀ d ∈ s.decisions, d.decisionSource = .scorer)
    (horder : g.verifierEnabled = true → ∀ p ∈ g.profiles, g.FallsBack p →
      byText g.candidateJson (g.candidates p) = g.candidates p) :
    g.Leads ⟨s, ⟨none, [.load .profiles, .load .candidates, .load .features, .load .scores,
      .load .decisions] ++ finishFrom g.verifierEnabled stage, {}⟩, asked⟩ := by
  have hdecisions := decisions_of_source (hs.decisions (hstatus ▸ hstage)) hsource
  have hprofiles := Known.load_profiles (l := {}) (hstored.mono (by decide))
  have hcandidates := hprofiles.load_candidates (hstored.mono (by decide)) horder
  have hscores := (hcandidates.load_features (hstored.mono (by decide))).load_scores hstored
  iterate 5 apply leads_load hs hasked
  refine leads_finish hs hasked hstatus ?_ hstored hdecisions hscores.load_decisions
    ((perm_byText _ _).trans hdecisions)
  simp only [List.mem_cons, List.not_mem_nil, or_false] at hstage ⊢
  tauto

/-- After a spared cut the program of the status leads to the result. -/
theorem leads_resume (hs : g.Recoverable x.store) (hasked : AsksScorer x.asked)
    (hspares : g.Spares x .cut) : g.Leads { x with process := { token := none } } := by
  obtain ⟨s, p, asked⟩ := x
  obtain ⟨hsource, horder⟩ := hspares rfl
  dsimp only at hs hasked hsource horder ⊢
  have hstored := hs.stored
  have hprogram : g.Leads
      ⟨s, ⟨none, (program g.verifierEnabled s.status).tail, {}⟩, asked⟩ := by
    cases hstatus : s.status <;> rw [hstatus] at hstored
    case queued => exact leads_profiling hs hasked hstatus
    case profiling => exact leads_profiling hs hasked hstatus
    case recalling =>
      apply leads_load hs hasked
      exact leads_recalling hs hasked hstatus hstored (Known.load_profiles hstored)
    case featurizing =>
      have hprofiles := Known.load_profiles (l := {}) (hstored.mono (by decide))
      have hknown := hprofiles.load_candidates hstored
        fun henabled => horder henabled (by simp [hstatus])
      iterate 2 apply leads_load hs hasked
      exact leads_featurizing hs hasked hstatus hstored hknown
    case scoring =>
      have hprofiles := Known.load_profiles (l := {}) (hstored.mono (by decide))
      have hknown := hprofiles.load_candidates (hstored.mono (by decide))
        fun henabled => horder henabled (by simp [hstatus])
      iterate 3 apply leads_load hs hasked
      exact leads_scoring hs hasked hstatus hstored (hknown.load_features hstored)
    case verifying =>
      exact leads_loaded hs hasked hstatus (by simp) hstored hsource
        fun henabled => horder henabled (by simp [hstatus])
    case active =>
      exact leads_loaded hs hasked hstatus (by simp) hstored hsource
        fun henabled => horder henabled (by simp [hstatus])
    all_goals simpa [hstatus] using hs.live
  have hops : program g.verifierEnabled s.status =
      .assertLease :: (program g.verifierEnabled s.status).tail := rfl
  have hasserted : g.Leads ⟨s, ⟨none, program g.verifierEnabled s.status, {}⟩, asked⟩ := by
    rw [hops]
    apply Leads.step (List.cons_ne_nil _ _) hs hasked
    simpa [Resumption.advance, Process.advance, Process.continueWith] using hprogram
  apply Leads.step (List.cons_ne_nil _ _) hs hasked
  simpa [Resumption.advance, Process.advance, Process.continueWith, hs.stored.cancel] using hasserted

theorem Leads.advance (h : g.Leads x) (hops : x.process.ops ≠ []) :
    g.Leads (x.advance g.toStages) := by
  cases h with
  | returned hnone _ _ _ => exact absurd hnone hops
  | step _ _ _ h => exact h

theorem Leads.step_of {y : Resumption} {label : ResumeLabel} (h : g.Leads x)
    (hspares : g.Spares x label) (hstep : x.step g.toStages label = some y) : g.Leads y := by
  cases label with
  | advance =>
    unfold Resumption.step at hstep
    split_ifs at hstep with hops
    cases hstep
    exact h.advance hops
  | cut =>
    unfold Resumption.step at hstep
    split_ifs at hstep
    cases hstep
    exact leads_resume h.recoverable.1 h.recoverable.2 hspares

theorem leads_initial (g : LawfulStages) : g.Leads {} := by
  have hs : g.Recoverable {} :=
    recoverable_of_stored ⟨rfl, fun _ => rfl, by simp [level], by simp [level], by simp [level],
      by simp [level]⟩ (by simp)
  exact leads_resume (x := {}) hs (by simp [AsksScorer]) fun _ => ⟨by simp, by simp⟩

theorem Leads.exists_returned (h : g.Leads x) :
    ∃ k y, (Resumption.machine g.toStages).Run Machine.Free x (List.replicate k .advance) y ∧
      y.Returned := by
  induction h with
  | returned hops _ _ _ => exact ⟨0, _, .nil _, hops⟩
  | @step x hops _ _ _ ih =>
    obtain ⟨k, y, hrun, hreturned⟩ := ih
    have hstep : (Resumption.machine g.toStages).step x .advance = some (x.advance g.toStages) :=
      if_neg hops
    exact ⟨k + 1, y, .cons trivial hstep hrun, hreturned⟩

theorem Leads.result (h : g.Leads x) (hreturned : x.Returned) :
    x.store.status = .active ∧ g.Recoverable x.store ∧ AsksScorer x.asked := by
  cases h with
  | returned _ hactive hstore hasked => exact ⟨hactive, hstore, hasked⟩
  | step hops _ _ _ => exact absurd hreturned hops

/-- Two calls that return leave the same rows. -/
theorem sameResult_of_active {s t : RunRecord} (hs : s.status = .active) (ht : t.status = .active)
    (hs' : g.Recoverable s) (ht' : g.Recoverable t) : SameResult s t := by
  have hstored : g.Stored 4 s := by
    have h := hs'.stored
    rwa [hs] at h
  have htored : g.Stored 4 t := by
    have h := ht'.stored
    rwa [ht] at h
  obtain ⟨hdecisions, hverifications⟩ := hs'.settled hs
  obtain ⟨hdecisions', hverifications'⟩ := ht'.settled ht
  exact ⟨hs.trans ht.symm,
    (hstored.profiles (by decide)).trans (htored.profiles (by decide)).symm,
    (hstored.candidates (by decide)).trans (htored.candidates (by decide)).symm,
    (hstored.features (by decide)).trans (htored.features (by decide)).symm,
    (hstored.scores le_rfl).trans (htored.scores le_rfl).symm,
    hdecisions.trans hdecisions'.symm, hverifications.trans hverifications'.symm⟩

theorem verified_names (p : PaperModuleProfile)
    (hsource : (g.verified p).1.decisionSource = .llmVerifier) :
    (g.verified p).1.verifierId = some (g.verified p).2.verificationId ∧
      (g.verified p).2.profileId = (g.verified p).1.profileId ∧ (g.verified p).2.status = .success := by
  have hscorer : (g.scorerDecision p).decisionSource = .scorer :=
    decisionSource_buildProfileDecision p _ _
  have hprofile : (g.scorerDecision p).profileId = p.profileId :=
    profileId_buildProfileDecision p _ _
  unfold verified verifyProfile at hsource ⊢
  cases hverify : g.provider.bind fun provider => provider.verify g.ids g.verificationIds p
      (g.candidates p) (g.profileScores p) (g.scorerDecision p) with
  | none =>
    rw [hverify] at hsource
    cases hscorer.symm.trans hsource
  | some result =>
    obtain ⟨provider, _, hverify⟩ := Option.bind_eq_some_iff.mp hverify
    obtain ⟨hid, hstatus⟩ := verification_of_verify hverify
    dsimp only
    refine ⟨verifierId_applyVerifierDecision _ _ _, ?_, hstatus⟩
    rw [profileId_applyVerifierDecision, hid, hprofile]

theorem namesVerifications_of_active {s : RunRecord} (hs : s.status = .active)
    (hs' : g.Recoverable s) : s.NamesVerifications := by
  obtain ⟨hdecisions, hverifications⟩ := hs'.settled hs
  intro d hd hsource
  have hfinal := hdecisions.mem_iff.mp hd
  unfold finalDecisions at hfinal
  unfold finalVerifications at hverifications
  split_ifs at hfinal hverifications with henabled
  · obtain ⟨p, hp, rfl⟩ := List.mem_map.mp hfinal
    obtain ⟨hid, hprofile, hstatus⟩ := verified_names p hsource
    exact ⟨_, hverifications.mem_iff.mpr (List.mem_map_of_mem hp), hid, hprofile, hstatus⟩
  · obtain ⟨p, _, rfl⟩ := List.mem_map.mp hfinal
    rw [show (g.scorerDecision p).decisionSource = .scorer from
      decisionSource_buildProfileDecision p _ _] at hsource
    cases hsource

end LawfulStages

open LawfulStages

/-- The call that no cut fell in. -/
def uncut (k : ℕ) : List ResumeLabel := List.replicate k .advance

theorem run_uncut (g : LawfulStages) {k : ℕ} {x y : Resumption}
    (h : (Resumption.machine g.toStages).Run Machine.Free x (uncut k) y) :
    (Resumption.machine g.toStages).Run g.Spares x (uncut k) y := by
  induction k generalizing x with
  | zero =>
    cases h
    exact .nil _
  | succ k ih =>
    unfold uncut at h ⊢
    rw [List.replicate_succ] at h ⊢
    cases h with
    | cons _ hstep hrest => exact .cons (fun hcut => nomatch hcut) hstep (ih hrest)

/-- A run that is cut off and processed again returns, keeps the verifier on the decisions
of the scorer, and leaves the rows of a run that was never cut off. -/
theorem resumed_runs_agree (g : LawfulStages) {labels : List ResumeLabel} {x : Resumption}
    (h : (Resumption.machine g.toStages).Run g.Spares {} labels x) :
    (∃ k y, (Resumption.machine g.toStages).Run Machine.Free x (uncut k) y ∧ y.Returned) ∧
      AsksScorer x.asked ∧
      (x.Returned → x.store.NamesVerifications ∧
        ∀ k y, (Resumption.machine g.toStages).Run Machine.Free {} (uncut k) y → y.Returned →
          SameResult x.store y.store) := by
  have hleads : ∀ {labels y}, (Resumption.machine g.toStages).Run g.Spares {} labels y →
      g.Leads y := fun hrun =>
    hrun.invariant g.Leads (fun _ _ _ hx hspares hstep => hx.step_of hspares hstep)
      (leads_initial g)
  have hx := hleads h
  refine ⟨hx.exists_returned, hx.recoverable.2, fun hreturned => ?_⟩
  obtain ⟨hactive, hstore, _⟩ := hx.result hreturned
  refine ⟨namesVerifications_of_active hactive hstore, fun k y hrun hy => ?_⟩
  obtain ⟨hactive', hstore', _⟩ := (hleads (run_uncut g hrun)).result hy
  exact sameResult_of_active hactive hactive' hstore hstore'

def soleProfile : PaperModuleProfile where
  profileId := "profile"
  alignmentRunId := "run"
  profileType := .module
  evidenceIds := ["section"]
  content := ""

def soleCandidate : AlignmentCandidate where
  candidateId := "candidate"
  alignmentRunId := "run"
  profileId := "profile"
  codeEntityId := "entity"
  codeEvidenceIds := ["line"]
  content := ""

def acceptingProvider : Provider where
  generate := fun _ _ _ => some
    { selections := [⟨"candidate", .implements, ["line"], ["same names"]⟩]
      verdict := .accept
      uncertainties := []
      metadata := "" }

def soleStages : LawfulStages where
  ids := ⟨fun profile => profile, fun _ candidate _ => candidate, fun _ _ _ => ""⟩
  verificationIds := ⟨fun profile _ => profile, fun profile => profile⟩
  profiles := [soleProfile]
  candidates := fun p => if p.profileId = "profile" then [soleCandidate] else []
  hasEntity := fun _ => true
  feature := fun p c => ⟨"vector", p.profileId, c.candidateId, ""⟩
  score := fun v => ⟨"score", v.profileId, v.candidateId, 1, 1, 1, some 1, [], ""⟩
  verifierEnabled := true
  provider := some acceptingProvider
  profileJson := PaperModuleProfile.profileId
  candidateJson := AlignmentCandidate.candidateId
  featureJson := AlignmentFeatureVector.vectorId
  scoreJson := AlignmentCandidateScore.scoreId
  decisionJson := AlignmentDecision.decisionId
  nodup_profiles := by simp
  profileId_candidates := by
    intro p c hc
    split_ifs at hc with hp
    · rw [hp, List.mem_singleton.mp hc, soleCandidate]
    · simp at hc
  nodup_candidates := by decide
  feature_ids := fun _ _ => ⟨rfl, rfl⟩
  score_ids := fun _ => ⟨rfl, rfl⟩
  candidateJson_inj := by
    intro p _ c hc c' hc' _
    split_ifs at hc hc'
    · rw [List.mem_singleton.mp hc, List.mem_singleton.mp hc']
    · simp at hc

/-- A cut before the stages of the verifier. -/
def cutScoring : List ResumeLabel := uncut 25 ++ [.cut] ++ uncut 24

/-- A cut between the last two writes. -/
def cutVerifying : List ResumeLabel := uncut 31 ++ [.cut] ++ uncut 17

/-- What a test of a run looks at. -/
def Resumption.summary (x : Resumption) : List Op × List (List String) × List DecisionSource :=
  (x.process.ops, x.store.decisions.map AlignmentDecision.reasonCodes,
    x.asked.map AlignmentDecision.decisionSource)

theorem uncut_reasons :
    ((Resumption.machine soleStages.toStages).exec Machine.Free {} (uncut 36)).map
      Resumption.summary = some ([], [["candidate_threshold_met", "coverage_gate_met",
        "margin_gate_met", "verifier_accept"]], [.scorer]) := by
  decide +kernel

theorem cutScoring_reasons :
    ((Resumption.machine soleStages.toStages).exec soleStages.Spares {} cutScoring).map
      Resumption.summary = some ([], [["candidate_threshold_met", "coverage_gate_met",
        "margin_gate_met", "verifier_accept"]], [.scorer]) := by
  decide +kernel

theorem cutVerifying_reasons :
    ((Resumption.machine soleStages.toStages).exec Machine.Free {} cutVerifying).map
      Resumption.summary = some ([], [["candidate_threshold_met", "coverage_gate_met",
        "margin_gate_met", "verifier_accept", "verifier_accept"]], [.scorer, .llmVerifier]) := by
  decide +kernel

theorem cutScoring_agrees : ∃ x,
    (Resumption.machine soleStages.toStages).Run soleStages.Spares {} cutScoring x ∧
      x.Returned ∧ x.store.NamesVerifications := by
  obtain ⟨x, hx, hsummary⟩ := Option.map_eq_some_iff.mp cutScoring_reasons
  have hrun := Machine.run_of_exec hx
  have hreturned : x.Returned := congrArg Prod.fst hsummary
  exact ⟨x, hrun, hreturned, ((resumed_runs_agree soleStages hrun).2.2 hreturned).1⟩

/-- A run that is cut off between its last two writes gives its verifier a decision of the
verifier. -/
theorem verified_decision_verified_again :
    ¬ ∀ (g : LawfulStages) (labels : List ResumeLabel) (x : Resumption),
      (Resumption.machine g.toStages).Run Machine.Free {} labels x → x.Returned →
        AsksScorer x.asked ∧ ∀ k y,
          (Resumption.machine g.toStages).Run Machine.Free {} (uncut k) y → y.Returned →
            SameResult x.store y.store := by
  intro hall
  obtain ⟨x, hx, hsummary⟩ := Option.map_eq_some_iff.mp cutVerifying_reasons
  obtain ⟨y, hy, hsummary'⟩ := Option.map_eq_some_iff.mp uncut_reasons
  simp only [Resumption.summary, Prod.mk.injEq] at hsummary hsummary'
  obtain ⟨_, hsame⟩ := hall soleStages _ x (Machine.run_of_exec hx) hsummary.1
  have hdecisions := (hsame _ y (Machine.run_of_exec hy) hsummary'.1).decisions
  have hreasons := hdecisions.map AlignmentDecision.reasonCodes
  rw [hsummary.2.1, hsummary'.2.1, List.perm_singleton] at hreasons
  exact absurd hreasons (by decide)

end CodeResearch.Alignment
