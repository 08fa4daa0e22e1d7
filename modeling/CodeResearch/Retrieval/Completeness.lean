import CodeResearch.Retrieval.GenerationSpec

/-!
# Ready generations under concurrent synchronization

A call begins its generation after a look at its status that another call can
outdate, and its error path takes back whatever the generation holds by then. The
generations that calls returned stay complete in those runs in which neither meets
a ready generation, and in which no call fills a generation that was taken back.
-/
namespace CodeResearch.Retrieval

/-- The calls of a run. Those of one generation are for one scope and the same documents. -/
structure Workload (store : FTSStore) where
  Calls : SyncCall → Prop
  agree : ∀ c c', Calls c → Calls c' → store.generationId c = store.generationId c' →
    c.scope = c'.scope ∧ store.rowsOf c = store.rowsOf c'

def Workload.same (store : FTSStore) (call : SyncCall) : Workload store where
  Calls c := c.scope = call.scope ∧ c.documents = call.documents
  agree := by
    rintro c c' ⟨hscope, hdocuments⟩ ⟨hscope', hdocuments'⟩ hid
    constructor
    · rw [hscope, hscope']
    · rw [FTSStore.rowsOf, FTSStore.rowsOf, hid, hdocuments, hdocuments']

variable {store : FTSStore}

def Workload.Admits (W : Workload store) : FTSEvent → Prop
  | .invoke call => W.Calls call
  | .advance _ _ => True

/-- The next transaction of a call takes a ready generation back, or fills a generation
that stays taken back or superseded. -/
def SyncPoint.Disturbs (store : FTSStore) (t : FTSTables) (call : SyncCall) : SyncPoint → Prop
  | start => t.status (store.generationId call) = some .ready
  | fill => (∃ status ∈ t.status (store.generationId call), status ≠ .building ∧ status ≠ .ready) ∧
      call.failBeforeActivation = false ∧ (call.documents.map RetrievalDocument.chunkId).Nodup ∧
        t.documentsOf (store.generationId call) = []
  | cleanUp _ => t.status (store.generationId call) = some .ready
  | _ => False

def FTSEvent.Disturbs (store : FTSStore) (s : FTSRun) : FTSEvent → Prop
  | .advance i false => ∃ c ∈ s.calls[i]?, c.2.Disturbs store s.tables c.1
  | _ => False

/-- The runs of a workload whose steps meet `G`. -/
abbrev Workload.Run (W : Workload store) (G : FTSRun → FTSEvent → Prop)
    (events : List FTSEvent) (s : FTSRun) : Prop :=
  (ftsMachine store).Run (fun s e => W.Admits e ∧ G s e) {} events s

/-- Every generation that a call returned serves the searches of its scope with the
documents of the call, until another generation supersedes it. -/
def KeepsReady (W : Workload store) (G : FTSRun → FTSEvent → Prop) : Prop :=
  ∀ events s, W.Run G events s → ∀ call ∈ s.kept, Serves store s.tables call

/-- The generations of a workload: at most one of a scope is ready, and those that were
filled hold the documents of their calls. -/
structure Sound (W : Workload store) (t : FTSTables) : Prop where
  scope : ∀ c, W.Calls c → ∀ row, t.generations.find? (store.generationId c) = some row →
    row.scope = c.scope
  unique : ∀ g h row row', t.generations.find? g = some row → t.generations.find? h = some row' →
    row.status = .ready → row'.status = .ready → row.scope = row'.scope → g = h
  full : ∀ c, W.Calls c → t.Full (store.generationId c) →
    t.documentsOf (store.generationId c) = store.rowsOf c
  bare : ∀ g, ¬ t.Full g → t.documentsOf g = []

section Sound

variable {W : Workload store} {t u : FTSTables} {call : SyncCall}

theorem not_full_empty (g : String) : ¬ FTSTables.Full {} g := by
  simp [FTSTables.Full, FTSTables.status]

theorem sound_empty : Sound W {} where
  scope := by
    intro c _ row hrow
    cases hrow
  unique := by
    intro g h row row' hrow
    cases hrow
  full := fun c _ h => absurd h (not_full_empty _)
  bare := fun _ _ => rfl

/-- The transactions that leave a generation bare and without the ready status. -/
theorem sound_of_bare (h : Sound W t) {g : String}
    (hother : ∀ k, k ≠ g → u.generations.find? k = t.generations.find? k)
    (hdocuments : ∀ k, u.documentsOf k = if k = g then [] else t.documentsOf k)
    (hself : ∀ row, u.generations.find? g = some row → row.status ≠ .ready ∧
      row.status ≠ .superseded ∧ ∀ c, W.Calls c → store.generationId c = g → row.scope = c.scope) :
    Sound W u := by
  have hfull : ¬ u.Full g := by
    intro hfull
    unfold FTSTables.Full FTSTables.status at hfull
    cases hrow : u.generations.find? g with
    | none => simp [hrow] at hfull
    | some row => simp [hrow, hself row hrow] at hfull
  have hsame : ∀ k, k ≠ g → (u.Full k ↔ t.Full k) := by
    intro k hk
    rw [FTSTables.Full, FTSTables.Full, status_congr (hother k hk)]
  constructor
  case scope =>
    intro c hc row hrow
    by_cases hg : store.generationId c = g
    · exact (hself row (hg ▸ hrow)).2.2 c hc hg
    · exact h.scope c hc row ((hother _ hg).symm.trans hrow)
  case unique =>
    intro k l row row' hrow hrow' hready hready' hscope
    have hk : k ≠ g := by
      rintro rfl
      exact (hself row hrow).1 hready
    have hl : l ≠ g := by
      rintro rfl
      exact (hself row' hrow').1 hready'
    rw [hother k hk] at hrow
    rw [hother l hl] at hrow'
    exact h.unique k l row row' hrow hrow' hready hready' hscope
  case full =>
    intro c hc hfilled
    by_cases hg : store.generationId c = g
    · exact absurd (hg ▸ hfilled) hfull
    · rw [hdocuments, if_neg hg]
      exact h.full c hc ((hsame _ hg).mp hfilled)
  case bare =>
    intro k hk
    rw [hdocuments]
    split_ifs with hg
    · rfl
    · exact h.bare k fun hf => hk ((hsame k hg).mpr hf)

theorem sound_begin (h : Sound W t) (hcall : W.Calls call) :
    Sound W (beginGeneration store t call) := by
  apply sound_of_bare h (fun _ => find?_begin_of_ne) documentsOf_begin
  intro row hrow
  obtain ⟨row', hrow', hstatus, hscope⟩ := find?_begin_self store t call
  cases Option.some.inj (hrow.symm.trans hrow')
  refine ⟨by simp [hstatus], by simp [hstatus], ?_⟩
  intro c hc hid
  rw [hscope]
  cases hold : t.generations.find? (store.generationId call) with
  | none => exact (W.agree call c hcall hc hid.symm).1
  | some old => exact h.scope c hc old (hid ▸ hold)

theorem sound_fail (h : Sound W t) (fault : FTSFault) :
    Sound W (failGeneration store t call fault) := by
  apply sound_of_bare h (fun _ => find?_fail_of_ne) (documentsOf_fail fault)
  intro row hrow
  obtain ⟨hstatus, old, hold, hscope⟩ := find?_fail_self hrow
  refine ⟨by simp [hstatus], by simp [hstatus], ?_⟩
  intro c hc hid
  rw [hscope]
  exact h.scope c hc old (hid ▸ hold)

theorem sound_fill (h : Sound W t) (hf : Filled store t call u) (hcall : W.Calls call)
    (hready : u.status (store.generationId call) = some .ready) : Sound W u := by
  have hscope : ∀ c, W.Calls c → ∀ row, u.generations.find? (store.generationId c) = some row →
      row.scope = c.scope := by
    intro c hc row hrow
    by_cases hid : store.generationId c = store.generationId call
    · obtain ⟨old, hold, hsame⟩ := hf.scope_self (hid ▸ hrow)
      rw [hsame]
      exact h.scope c hc old (hid ▸ hold)
    · obtain ⟨old, hold, hsame, _⟩ := hf.other hid hrow
      rw [hsame]
      exact h.scope c hc old hold
  -- what is still ready besides the new generation is of another scope
  have hold : ∀ k row, k ≠ store.generationId call → u.generations.find? k = some row →
      row.status = .ready → row.scope ≠ call.scope ∧ ∃ old, t.generations.find? k = some old ∧
        old.status = .ready ∧ row.scope = old.scope := by
    intro k row hk hrow hr
    obtain ⟨old, hold, hsame, ⟨hstatus, hnot⟩ | ⟨hstatus, _⟩⟩ := hf.other hk hrow
    · rw [hr] at hstatus
      exact ⟨fun hs => hnot ⟨hsame.symm.trans hs, hstatus.symm⟩, old, hold, hstatus.symm, hsame⟩
    · rw [hr] at hstatus
      cases hstatus
  constructor
  case scope => exact hscope
  case unique =>
    intro k l row row' hrow hrow' hr hr' hs
    by_cases hk : k = store.generationId call <;> by_cases hl : l = store.generationId call
    · rw [hk, hl]
    · exact absurd (hs.symm.trans (hscope call hcall row (hk ▸ hrow)))
        (hold l row' hl hrow' hr').1
    · exact absurd (hs.trans (hscope call hcall row' (hl ▸ hrow')))
        (hold k row hk hrow hr).1
    · obtain ⟨_, old, hfind, hstatus, hsame⟩ := hold k row hk hrow hr
      obtain ⟨_, old', hfind', hstatus', hsame'⟩ := hold l row' hl hrow' hr'
      exact h.unique k l old old' hfind hfind' hstatus hstatus' (by rw [← hsame, hs, hsame'])
  case full =>
    intro c hc hfull
    rw [hf.documentsOf]
    split_ifs with hid
    · exact (W.agree call c hcall hc hid.symm).2
    · exact h.full c hc ((hf.full_other hid).mp hfull)
  case bare =>
    intro k hk
    rw [hf.documentsOf]
    split_ifs with hid
    · apply absurd _ hk
      rw [hid, FTSTables.Full, hready]
      decide
    · exact h.bare k fun hfull => hk ((hf.full_other hid).mpr hfull)

end Sound

/-- What the undisturbed runs of a workload keep. -/
structure Intact (W : Workload store) (s : FTSRun) : Prop where
  calls : ∀ c ∈ s.calls, W.Calls c.1
  begun : ∀ c ∈ s.calls, c.2 = .fill → (s.tables.status (store.generationId c.1)).isSome
  sound : Sound W s.tables
  kept : ∀ c ∈ s.kept, W.Calls c ∧ s.tables.status (store.generationId c) = some .ready

section Runs

variable {W : Workload store} {s : FTSRun} {i : ℕ} {call : SyncCall} {point : SyncPoint}

theorem perform_advance (hc : s.calls[i]? = some (call, point)) (locked : Bool) :
    s.perform store (.advance i locked) =
      { tables := (point.advance store s.tables call locked).1
        calls := s.calls.set i (call, (point.advance store s.tables call locked).2)
        kept := keptAfter store s.tables s.kept call point
          (point.advance store s.tables call locked).2 } := by
  rw [FTSRun.perform, hc]

variable {next : SyncPoint} {u t : FTSTables} {e : FTSEvent} {G : FTSRun → FTSEvent → Prop}
  {events : List FTSEvent}

/-- A transaction of one call. -/
theorem Intact.set (h : Intact W s) (hc : s.calls[i]? = some (call, point)) {kept : List SyncCall}
    (hsound : Sound W u)
    (hsome : ∀ c : SyncCall, (s.tables.status (store.generationId c)).isSome →
      (u.status (store.generationId c)).isSome)
    (hfill : next = .fill → (u.status (store.generationId call)).isSome)
    (hkept : ∀ c ∈ kept, W.Calls c ∧ u.status (store.generationId c) = some .ready) :
    Intact W ⟨u, s.calls.set i (call, next), kept⟩ := by
  have hW : W.Calls call := h.calls _ (List.mem_of_getElem? hc)
  refine ⟨?_, ?_, hsound, hkept⟩
  · intro c hcall
    rcases List.mem_or_eq_of_mem_set hcall with hold | rfl
    · exact h.calls c hold
    · exact hW
  · intro c hcall hpoint
    rcases List.mem_or_eq_of_mem_set hcall with hold | rfl
    · exact hsome c.1 (h.begun c hold hpoint)
    · exact hfill hpoint

theorem Intact.set_same (h : Intact W s) (hc : s.calls[i]? = some (call, point))
    (hfill : next ≠ .fill) :
    Intact W ⟨s.tables, s.calls.set i (call, next), s.kept⟩ :=
  h.set hc h.sound (fun _ hs => hs) (fun hf => absurd hf hfill) h.kept

theorem Intact.advance (h : Intact W s) (hc : s.calls[i]? = some (call, point))
    (hstill : ¬ point.Disturbs store s.tables call) :
    Intact W (s.perform store (.advance i false)) := by
  have hcall : W.Calls call := h.calls _ (List.mem_of_getElem? hc)
  rw [perform_advance hc]
  cases point with
  | check =>
    simp only [SyncPoint.advance, Bool.false_eq_true, if_false]
    split_ifs with hready
    · apply h.set hc h.sound (fun _ hs => hs) (fun hf => by cases hf)
      intro c hmem
      rcases List.mem_append.mp hmem with hold | hnew
      · exact h.kept c hold
      · rw [List.mem_singleton.mp hnew]
        exact ⟨hcall, hready⟩
    · exact h.set_same hc (by simp)
  | start =>
    apply h.set hc (sound_begin h.sound hcall) (fun _ hs => isSome_begin hs)
    · intro _
      rw [status_begin, if_pos rfl]
      rfl
    · intro c hmem
      obtain ⟨hc, hready⟩ := h.kept c hmem
      refine ⟨hc, ?_⟩
      rw [status_begin, if_neg, hready]
      intro hid
      rw [hid] at hready
      exact hstill hready
  | fill =>
    simp only [SyncPoint.advance, Bool.false_eq_true, if_false]
    cases hfill : fillGeneration store s.tables call with
    | error fault => exact h.set_same hc (by simp)
    | ok u =>
      have hf := filled_of_ok hfill
      have hready : u.status (store.generationId call) = some .ready := by
        rw [hf.status_self]
        split_ifs with hbuilding
        · rfl
        · obtain ⟨status, hstatus⟩ := Option.isSome_iff_exists.mp
            (h.begun _ (List.mem_of_getElem? hc) rfl)
          by_contra hne
          apply hstill
          refine ⟨⟨status, hstatus, ?_, ?_⟩, hf.live, hf.distinct, hf.bare⟩ <;>
          · rintro rfl
            contradiction
      apply h.set hc (sound_fill h.sound hf hcall hready) (fun _ hs => hf.isSome hs)
        (fun hf => by cases hf)
      intro c hmem
      rcases List.mem_append.mp hmem with hold | hnew
      · obtain ⟨hold, hkeep⟩ := List.mem_filter.mp hold
        obtain ⟨hc, hold⟩ := h.kept c hold
        refine ⟨hc, ?_⟩
        by_cases hid : store.generationId c = store.generationId call
        · rw [hid, hready]
        · rw [hf.status_other hid, if_neg (by simpa using hkeep), hold]
      · rw [List.mem_singleton.mp hnew]
        exact ⟨hcall, hready⟩
  | cleanUp fault =>
    apply h.set hc (sound_fail h.sound fault) (fun _ hs => isSome_fail hs fault)
      (fun hf => by cases hf)
    intro c hmem
    obtain ⟨hc, hready⟩ := h.kept c hmem
    refine ⟨hc, ?_⟩
    rw [status_fail, if_neg, hready]
    intro hid
    rw [hid] at hready
    exact hstill hready
  | returned | raised => exact h.set_same hc (by simp [SyncPoint.advance])

theorem Intact.perform (h : Intact W s) (hadmits : W.Admits e)
    (hstill : ¬ e.Disturbs store s) : Intact W (s.perform store e) := by
  cases e with
  | invoke call =>
    refine ⟨?_, ?_, h.sound, h.kept⟩
    · intro c hc
      rcases List.mem_append.mp hc with hold | hnew
      · exact h.calls c hold
      · rw [List.mem_singleton.mp hnew]
        exact hadmits
    · intro c hc hpoint
      rcases List.mem_append.mp hc with hold | hnew
      · exact h.begun c hold hpoint
      · rw [List.mem_singleton.mp hnew] at hpoint
        cases hpoint
  | advance i locked =>
    cases hc : s.calls[i]? with
    | none =>
      rw [FTSRun.perform, hc]
      exact h
    | some c =>
      obtain ⟨call, point⟩ := c
      cases locked with
      | false => exact h.advance hc fun hd => hstill ⟨_, hc, hd⟩
      | true =>
        rw [perform_advance hc]
        cases point <;> exact h.set_same hc (by simp [SyncPoint.advance])

theorem intact_empty : Intact W {} :=
  ⟨by simp, by simp, sound_empty, by simp⟩

theorem intact_run
    (hstill : ∀ events s e, W.Run G events s → W.Admits e → G s e → ¬ e.Disturbs store s) {s : FTSRun} (h : W.Run G events s) : Intact W s := by
  have hboth : (∃ events, W.Run G events s) ∧ Intact W s := by
    apply h.invariant fun s => (∃ events, W.Run G events s) ∧ Intact W s
    · rintro s e t ⟨⟨events, hrun⟩, hs⟩ ⟨hadmits, hG⟩ hstep
      refine ⟨⟨_, hrun.snoc ⟨hadmits, hG⟩ hstep⟩, ?_⟩
      cases Option.some.inj hstep
      exact hs.perform hadmits (hstill events s e hrun hadmits hG)
    · exact ⟨⟨_, .nil _⟩, intact_empty⟩
  exact hboth.2

def Returned (store : FTSStore) (s : FTSRun) : Prop :=
  ∀ g, s.tables.status g = some .ready → ∃ c ∈ s.kept, store.generationId c = g

theorem Returned.fill (h : Returned store s) (hf : Filled store s.tables call u)
    {g : String} (hready : u.status g = some .ready) :
    ∃ c ∈ s.kept.filter (fun c => ¬ Supersedes store s.tables call c) ++ [call],
      store.generationId c = g := by
  by_cases hg : g = store.generationId call
  · exact ⟨call, by simp, hg.symm⟩
  · obtain ⟨row, hrow, hstatus⟩ := Option.map_eq_some_iff.mp hready
    obtain ⟨old, hold, _, ⟨hsame, hscope⟩ | ⟨hsuperseded, _⟩⟩ := hf.other hg hrow
    · obtain ⟨c, hc, rfl⟩ := h g (by rw [status_of_find? hold, ← hsame, hstatus])
      refine ⟨c, List.mem_append_left _ (List.mem_filter.mpr ⟨hc, ?_⟩), rfl⟩
      rw [decide_eq_true_eq]
      rintro ⟨_, row', hrow', hscope'⟩
      rw [hold] at hrow'
      cases hrow'
      exact hscope hscope'
    · rw [hsuperseded] at hstatus
      cases hstatus

theorem Returned.perform (h : Returned store s) (e : FTSEvent) :
    Returned store (s.perform store e) := by
  cases e with
  | invoke call => exact h
  | advance i locked =>
    cases hc : s.calls[i]? with
    | none =>
      rw [FTSRun.perform, hc]
      exact h
    | some c =>
      obtain ⟨call, point⟩ := c
      rw [perform_advance hc]
      cases locked with
      | true => cases point <;> exact h
      | false =>
        cases point with
        | check =>
          simp only [SyncPoint.advance, Bool.false_eq_true, if_false]
          split_ifs
          · intro g hready
            obtain ⟨c, hc, hid⟩ := h g hready
            exact ⟨c, List.mem_append_left _ hc, hid⟩
          · exact h
        | start =>
          intro g hready
          change (beginGeneration store s.tables call).status g = some .ready at hready
          rw [status_begin] at hready
          split_ifs at hready
          · cases hready
          · exact h g hready
        | fill =>
          simp only [SyncPoint.advance, Bool.false_eq_true, if_false]
          cases hfill : fillGeneration store s.tables call with
          | error fault => exact h
          | ok u =>
            intro g hready
            exact h.fill (filled_of_ok hfill) hready
        | cleanUp fault =>
          intro g hready
          change (failGeneration store s.tables call fault).status g = some .ready at hready
          rw [status_fail] at hready
          split_ifs at hready
          · obtain ⟨_, _, hfailed⟩ := Option.map_eq_some_iff.mp hready
            cases hfailed
          · exact h g hready
        | returned | raised => exact h

theorem returned_run {s : FTSRun} (h : W.Run G events s) : Returned store s := by
  apply h.invariant (Returned store)
  · intro s e t hs _ hstep
    cases Option.some.inj hstep
    exact hs.perform e
  · intro g hready
    cases hready

theorem Serves.status (h : Serves store t call) :
    t.status (store.generationId call) = some .ready := by
  obtain ⟨row, hrow, hid⟩ := Option.map_eq_some_iff.mp h.1
  have hmem := List.mem_of_find?_eq_some hrow
  have hready := List.find?_some hrow
  rw [decide_eq_true_eq] at hready
  have hfind := Table.find?_of_mem hmem
  rw [hid] at hfind
  rw [status_of_find? hfind, hready.2]

theorem Sound.serves (h : Sound W t) (hc : W.Calls call)
    (hready : t.status (store.generationId call) = some .ready) : Serves store t call := by
  obtain ⟨row, hrow, hstatus⟩ := Option.map_eq_some_iff.mp hready
  have hscope := h.scope call hc row hrow
  constructor
  · cases hfound : t.readyGeneration call.scope with
    | none =>
      have hnone := List.find?_eq_none.mp hfound row (Table.find?_mem hrow)
      simp [hscope, hstatus] at hnone
    | some found =>
      have hmem := List.mem_of_find?_eq_some hfound
      have hfind := List.find?_some hfound
      rw [decide_eq_true_eq] at hfind
      rw [Option.map_some, h.unique _ _ found row (Table.find?_of_mem hmem) hrow hfind.2 hstatus
        (by rw [hfind.1, hscope])]
  · apply h.full call hc
    rw [FTSTables.Full, hready]
    decide

/-- A disturbing transaction leaves a generation that was returned without the ready status. -/
theorem Returned.disturbs (h : Returned store s) (hd : e.Disturbs store s) :
    ∃ c ∈ (s.perform store e).kept,
      (s.perform store e).tables.status (store.generationId c) ≠ some .ready := by
  cases e with
  | invoke call => cases hd
  | advance i locked =>
    cases locked with
    | true => cases hd
    | false =>
      obtain ⟨⟨call, point⟩, hc, hd⟩ := hd
      rw [perform_advance hc]
      cases point with
      | start =>
        obtain ⟨c, hc, hid⟩ := h _ hd
        refine ⟨c, hc, ?_⟩
        change (beginGeneration store s.tables call).status _ ≠ some .ready
        rw [status_begin, if_pos hid]
        decide
      | fill =>
        obtain ⟨⟨status, hstatus, hbuilding, hready⟩, hlive, hdistinct, hbare⟩ := hd
        rw [Option.mem_def] at hstatus
        obtain ⟨u, hfill, hsame⟩ := exists_fill hbare hdistinct hlive
          (by simpa [hstatus] using hbuilding)
        simp only [SyncPoint.advance, Bool.false_eq_true, if_false, hfill]
        refine ⟨call, List.mem_append_right _ List.mem_cons_self, ?_⟩
        rw [hsame, hstatus]
        simpa using hready
      | cleanUp fault =>
        obtain ⟨c, hc, hid⟩ := h _ hd
        refine ⟨c, hc, ?_⟩
        change (failGeneration store s.tables call fault).status _ ≠ some .ready
        rw [status_fail, if_pos hid, hid, hd]
        decide
      | check | returned | raised => cases hd

end Runs

/-- The generations that calls returned stay ready and complete in exactly those runs
whose transactions disturb none. -/
theorem keepsReady_iff (W : Workload store) (G : FTSRun → FTSEvent → Prop) :
    KeepsReady W G ↔ ∀ events s e, W.Run G events s → W.Admits e → G s e →
      ¬ e.Disturbs store s := by
  constructor
  · intro h events s e hrun hadmits hG hd
    obtain ⟨c, hc, hstatus⟩ := (returned_run hrun).disturbs hd
    exact hstatus (h _ _ (hrun.snoc ⟨hadmits, hG⟩ rfl) c hc).status
  · intro hstill events s hrun c hc
    have hs := intact_run hstill hrun
    obtain ⟨hW, hready⟩ := hs.kept c hc
    exact hs.sound.serves hW hready

/-- Digests that spell their input out. -/
def demoFTSStore : FTSStore where
  documentsDigest pairs := String.join (pairs.map fun p => p.1 ++ p.2)
  generationDigest scope digest := scope.repoId ++ scope.indexVersionId ++ scope.profileHash ++ digest

def demoDocument : RetrievalDocument where
  chunkId := "chunk"
  entityId := "entity"
  repoId := "repo"
  indexVersionId := "version"
  entityKind := .code
  entityType := "function"
  chunkType := "body"
  text := "def f(): pass"
  contentHash := "hash"

def demoCall : SyncCall where
  scope := ⟨"repo", "version", "profile"⟩
  documents := [demoDocument]

/-- The second call looks at the status before the first one activates the generation,
and begins it again afterwards. -/
def overlap : List FTSEvent :=
  [.invoke demoCall, .invoke demoCall, .advance 0 false, .advance 1 false, .advance 0 false,
    .advance 0 false, .advance 1 false]

theorem not_keepsReady_overlap :
    ¬ KeepsReady (Workload.same demoFTSStore demoCall) Machine.Free := by
  intro h
  have hrun : (Workload.same demoFTSStore demoCall).Run Machine.Free overlap
      (overlap.foldl (FTSRun.perform demoFTSStore) {}) := by
    apply Machine.run_total_of_forall
    intro e he s
    simp only [overlap, List.mem_cons, List.not_mem_nil, or_false] at he
    rcases he with rfl | rfl | rfl | rfl | rfl | rfl | rfl
    · exact ⟨⟨rfl, rfl⟩, trivial⟩
    · exact ⟨⟨rfl, rfl⟩, trivial⟩
    all_goals exact ⟨trivial, trivial⟩
  have hserves := h _ _ hrun demoCall (by decide +kernel)
  revert hserves
  decide +kernel

end CodeResearch.Retrieval
