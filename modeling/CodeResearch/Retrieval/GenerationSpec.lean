import CodeResearch.Retrieval.Generations

/-!
# The transactions of a synchronization

What each transaction leaves of the generations and of their documents.
-/
namespace CodeResearch.Retrieval

variable {store : FTSStore}

def FTSTables.Full (t : FTSTables) (g : String) : Prop :=
  t.status g ∈ [some .ready, some .superseded]

instance (t : FTSTables) (g : String) : Decidable (t.Full g) := inferInstanceAs (Decidable (_ ∈ _))

variable {g : String} {t : FTSTables}

theorem status_of_find? {row : GenerationRow}
    (h : t.generations.find? g = some row) : t.status g = some row.status := by
  rw [FTSTables.status, h, Option.map_some]

theorem status_congr {u : FTSTables}
    (h : u.generations.find? g = t.generations.find? g) : u.status g = t.status g := by
  rw [FTSTables.status, FTSTables.status, h]

section Transactions

variable {t u : FTSTables} {call c : SyncCall}

@[simp] theorem documentsOf_delete (t : FTSTables) (g h : String) :
    (t.deleteGenerationDocuments g).documentsOf h = if h = g then [] else t.documentsOf h := by
  simp only [FTSTables.documentsOf, FTSTables.deleteGenerationDocuments, Table.rows_deleteWhere,
    List.filter_filter]
  split_ifs with hid
  · subst hid
    simp
  · apply List.filter_congr
    intro d _
    by_cases hd : d.generationId = h <;> simp [hd, hid]

theorem documentsOf_begin (h : String) :
    (beginGeneration store t call).documentsOf h =
      if h = store.generationId call then [] else t.documentsOf h := by
  rw [beginGeneration, documentsOf_delete]
  rfl

theorem documentsOf_fail (fault : FTSFault) (h : String) :
    (failGeneration store t call fault).documentsOf h =
      if h = store.generationId call then [] else t.documentsOf h :=
  documentsOf_delete t _ h

theorem find?_begin_self (store : FTSStore) (t : FTSTables) (call : SyncCall) : ∃ row, (beginGeneration store t call).generations.find?
      (store.generationId call) = some row ∧ row.status = .building ∧
    row.scope = ((t.generations.find? (store.generationId call)).map GenerationRow.scope).getD
      call.scope := by
  refine ⟨_, Table.find?_upsert_self _ _ _ _, ?_⟩
  dsimp only
  cases t.generations.find? (store.generationId call) <;> exact ⟨rfl, rfl⟩

variable {h g : String} {fault : FTSFault} {row : GenerationRow}

theorem find?_begin_of_ne (hne : h ≠ store.generationId call) :
    (beginGeneration store t call).generations.find? h = t.generations.find? h :=
  Table.find?_upsert_of_ne _ _ _ _ hne

theorem find?_fail_self
    (h : (failGeneration store t call fault).generations.find? (store.generationId call) = some row) :
    row.status = .failed ∧ ∃ old, t.generations.find? (store.generationId call) = some old ∧
      row.scope = old.scope := by
  rw [failGeneration, Table.find?_updateWhere, Option.map_eq_some_iff] at h
  obtain ⟨old, hold, rfl⟩ := h
  rw [if_pos (by simpa using Table.find?_key hold)]
  exact ⟨rfl, old, hold, rfl⟩

theorem find?_fail_of_ne (hne : h ≠ store.generationId call) :
    (failGeneration store t call fault).generations.find? h = t.generations.find? h := by
  rw [failGeneration, Table.find?_updateWhere]
  cases hrow : t.generations.find? h with
  | none => rfl
  | some row =>
    rw [Option.map_some, if_neg]
    rw [decide_eq_true_eq, Table.find?_key hrow]
    exact hne

theorem find?_supersedeOthers (scope : GenerationScope) (g h : String) :
    (t.supersedeOthers scope g).generations.find? h = (t.generations.find? h).map fun r =>
      if r.scope = scope ∧ r.status = .ready ∧ r.generationId ≠ g
      then { r with status := .superseded } else r := by
  rw [FTSTables.supersedeOthers, Table.find?_updateWhere]
  simp only [decide_eq_true_eq]

theorem find?_supersedeOthers_self (scope : GenerationScope) (g : String) :
    (t.supersedeOthers scope g).generations.find? g = t.generations.find? g := by
  rw [find?_supersedeOthers]
  cases hrow : t.generations.find? g with
  | none => rfl
  | some row =>
    rw [Option.map_some, if_neg]
    rintro ⟨_, _, hne⟩
    exact hne (Table.find?_key hrow)

theorem documentsOf_rowsOf (h : String) :
    (store.rowsOf call).filter (fun d => d.generationId = h) =
      if h = store.generationId call then store.rowsOf call else [] := by
  have hid : ∀ d ∈ store.rowsOf call, d.generationId = store.generationId call := by
    intro d hd
    obtain ⟨_, _, rfl⟩ := List.mem_map.mp hd
    rfl
  split_ifs with hh
  · apply List.filter_eq_self.mpr
    intro d hd
    simp [hid d hd, hh]
  · apply List.filter_eq_nil_iff.mpr
    intro d hd
    simpa [hid d hd] using Ne.symm hh

theorem length_rowsOf (call : SyncCall) : (store.rowsOf call).length = call.documents.length := by
  rw [FTSStore.rowsOf, List.length_map, orderedDocuments, List.length_insertionSort]

/-- What the second transaction does when it returns. -/
structure Filled (store : FTSStore) (t : FTSTables) (call : SyncCall) (u : FTSTables) : Prop where
  live : call.failBeforeActivation = false
  distinct : (call.documents.map RetrievalDocument.chunkId).Nodup
  bare : t.documentsOf (store.generationId call) = []
  documents : u.documents.rows = t.documents.rows ++ store.rowsOf call
  others : ∀ h, h ≠ store.generationId call → u.generations.find? h =
    (t.supersedeOthers call.scope (store.generationId call)).generations.find? h
  self : (t.status (store.generationId call) ≠ some .building ∧
      u.generations.find? (store.generationId call) =
        t.generations.find? (store.generationId call)) ∨
    ∃ row row', t.generations.find? (store.generationId call) = some row ∧ row.status = .building ∧
      u.generations.find? (store.generationId call) = some row' ∧ row'.status = .ready ∧
      row'.scope = row.scope

theorem documentsOf_append {rows : List DocumentRow} (hrows : u.documents.rows =
    t.documents.rows ++ rows) (h : String) :
    u.documentsOf h = t.documentsOf h ++ rows.filter (fun d => d.generationId = h) := by
  rw [FTSTables.documentsOf, hrows, List.filter_append]
  rfl

theorem chunks_nodup_of_rows {documents : Table DocumentRow.key} {old : List DocumentRow}
    (hrows : documents.rows = old ++ store.rowsOf call) :
    (call.documents.map RetrievalDocument.chunkId).Nodup := by
  have hnodup := documents.nodup
  rw [hrows, List.map_append, List.nodup_append] at hnodup
  have hchunks : ((orderedDocuments call.documents).map RetrievalDocument.chunkId).Nodup := by
    apply List.Nodup.of_map (fun chunkId => (store.generationId call, chunkId))
    rw [List.map_map]
    rw [FTSStore.rowsOf, List.map_map] at hnodup
    exact hnodup.2.1
  exact ((List.perm_insertionSort _ call.documents).map _).nodup_iff.mp hchunks

theorem filled_of_ok (h : fillGeneration store t call = .ok u) : Filled store t call u := by
  unfold fillGeneration at h
  obtain ⟨documents, hinsert, h⟩ := except_bind_eq_ok_iff.mp h
  rw [orError_eq_ok_iff] at hinsert
  have hrows := Table.rows_insertAll hinsert
  obtain ⟨_, hcount, h⟩ := except_bind_eq_ok_iff.mp h
  rw [ensure_eq_ok_iff, documentsOf_append hrows, documentsOf_rowsOf, if_pos rfl,
    List.length_append, length_rowsOf] at hcount
  obtain ⟨_, hlive, h⟩ := except_bind_eq_ok_iff.mp h
  rw [ensure_eq_ok_iff] at hlive
  have hdistinct := chunks_nodup_of_rows hrows
  have hbare : t.documentsOf (store.generationId call) = [] :=
    List.length_eq_zero_iff.mp (by omega)
  unfold FTSTables.activate at h
  have hself := find?_supersedeOthers_self (t := ⟨t.generations, documents⟩) call.scope
    (store.generationId call)
  cases hrow : t.generations.find? (store.generationId call) with
  | none =>
    rw [hself.trans hrow] at h
    cases h
    refine ⟨hlive, hdistinct, hbare, hrows, fun _ _ => rfl, .inl ⟨?_, hself⟩⟩
    rw [FTSTables.status, hrow]
    simp
  | some row =>
    have hsome := hself.trans hrow
    rw [hsome] at h
    have hid : row.generationId = store.generationId call := Table.find?_key hrow
    by_cases hbuilding : row.status = .building
    · rw [Option.filter_some, if_pos (by simpa using hbuilding)] at h
      obtain ⟨_, _, h⟩ := except_bind_eq_ok_iff.mp h
      cases h
      refine ⟨hlive, hdistinct, hbare, hrows, ?_, .inr ⟨row, _, hrow, hbuilding,
        Table.find?_replace_of_key hid (by rw [hsome]; rfl), rfl, rfl⟩⟩
      intro k hk
      exact Table.find?_replace_of_ne _ (by simpa [hid] using hk)
    · rw [Option.filter_some, if_neg (by simpa using hbuilding)] at h
      cases h
      refine ⟨hlive, hdistinct, hbare, hrows, fun _ _ => rfl, .inl ⟨?_, hself⟩⟩
      rw [FTSTables.status, hrow]
      simpa using hbuilding

/-- A generation that is not being built can still be filled, and keeps its status. -/
theorem exists_fill (hbare : t.documentsOf (store.generationId call) = [])
    (hnodup : (call.documents.map RetrievalDocument.chunkId).Nodup)
    (hfail : call.failBeforeActivation = false)
    (hstatus : t.status (store.generationId call) ≠ some .building) :
    ∃ u, fillGeneration store t call = .ok u ∧
      u.status (store.generationId call) = t.status (store.generationId call) := by
  have hkeys : (t.documents.rows.map DocumentRow.key ++
      (store.rowsOf call).map DocumentRow.key).Nodup := by
    have hchunks : ((orderedDocuments call.documents).map RetrievalDocument.chunkId).Nodup :=
      ((List.perm_insertionSort _ call.documents).map _).nodup_iff.mpr hnodup
    apply List.Nodup.append t.documents.nodup
    · rw [FTSStore.rowsOf, List.map_map]
      apply List.Nodup.map_on _ (hchunks.of_map _)
      intro d hd d' hd' hkey
      exact List.inj_on_of_nodup_map hchunks hd hd' (congrArg Prod.snd hkey)
    · rintro key hold hnew
      obtain ⟨d, hd, rfl⟩ := List.mem_map.mp hold
      obtain ⟨d', hd', hkey⟩ := List.mem_map.mp hnew
      obtain ⟨_, _, rfl⟩ := List.mem_map.mp hd'
      have hid : d.generationId = store.generationId call := (congrArg Prod.fst hkey).symm
      have hmem : d ∈ t.documentsOf (store.generationId call) := List.mem_filter.mpr ⟨hd, by simpa⟩
      rw [hbare] at hmem
      cases hmem
  obtain ⟨documents, hinsert⟩ := Table.exists_insertAll hkeys
  have hrows := Table.rows_insertAll hinsert
  have hcount : (FTSTables.documentsOf ⟨t.generations, documents⟩
      (store.generationId call)).length = call.documents.length := by
    rw [documentsOf_append hrows, documentsOf_rowsOf, if_pos rfl, hbare, List.nil_append,
      length_rowsOf]
  have hself := find?_supersedeOthers_self (t := ⟨t.generations, documents⟩) call.scope
    (store.generationId call)
  have hnone : ((FTSTables.supersedeOthers ⟨t.generations, documents⟩ call.scope
      (store.generationId call)).generations.find? (store.generationId call)).filter
        (fun r => r.status = .building) = none := by
    rw [hself, Option.filter_eq_none_iff]
    intro row hrow hbuilding
    apply hstatus
    rw [FTSTables.status, show t.generations.find? _ = some row from hrow]
    simpa using hbuilding
  refine ⟨FTSTables.supersedeOthers ⟨t.generations, documents⟩ call.scope
    (store.generationId call), ?_, ?_⟩
  · unfold fillGeneration FTSTables.activate
    rw [hinsert, orError_some, except_bind_ok]
    dsimp only
    rw [ensure_pos hcount, except_bind_ok, ensure_pos hfail, except_bind_ok, hnone]
  · rw [FTSTables.status, hself]
    rfl

theorem Filled.other (hf : Filled store t call u) (hne : h ≠ store.generationId call)
    (hrow : u.generations.find? h = some row) :
    ∃ old, t.generations.find? h = some old ∧ row.scope = old.scope ∧
      (row.status = old.status ∧ ¬ (old.scope = call.scope ∧ old.status = .ready) ∨
        row.status = .superseded ∧ old.scope = call.scope ∧ old.status = .ready) := by
  rw [hf.others h hne, find?_supersedeOthers, Option.map_eq_some_iff] at hrow
  obtain ⟨old, hold, rfl⟩ := hrow
  have hid : old.generationId ≠ store.generationId call := by
    rw [Table.find?_key hold]
    exact hne
  refine ⟨old, hold, ?_⟩
  split_ifs with hready
  · exact ⟨rfl, .inr ⟨rfl, hready.1, hready.2.1⟩⟩
  · exact ⟨rfl, .inl ⟨rfl, fun h => hready ⟨h.1, h.2, hid⟩⟩⟩

theorem Filled.full_other (hf : Filled store t call u)
    (hne : h ≠ store.generationId call) : u.Full h ↔ t.Full h := by
  cases hrow : u.generations.find? h with
  | none =>
    have hold : t.generations.find? h = none := by
      rw [hf.others h hne, find?_supersedeOthers, Option.map_eq_none_iff] at hrow
      exact hrow
    rw [FTSTables.Full, FTSTables.Full, status_congr (hrow.trans hold.symm)]
  | some row =>
    obtain ⟨old, hold, _, ⟨hsame, _⟩ | ⟨hrow', _, hold'⟩⟩ := hf.other hne hrow
    · rw [FTSTables.Full, FTSTables.Full, status_of_find? hrow, status_of_find? hold, hsame]
    · rw [FTSTables.Full, FTSTables.Full, status_of_find? hrow, status_of_find? hold, hrow', hold']
      exact iff_of_true (by decide) (by decide)

theorem Filled.documentsOf (hf : Filled store t call u) (h : String) :
    u.documentsOf h = if h = store.generationId call then store.rowsOf call
      else t.documentsOf h := by
  rw [documentsOf_append hf.documents, documentsOf_rowsOf]
  split_ifs with hh
  · rw [hh, hf.bare, List.nil_append]
  · rw [List.append_nil]

theorem Filled.status_self (hf : Filled store t call u) :
    u.status (store.generationId call) = if t.status (store.generationId call) = some .building
      then some .ready else t.status (store.generationId call) := by
  rcases hf.self with ⟨hstatus, hsame⟩ | ⟨row, row', hrow, hbuilding, hrow', hready, _⟩
  · rw [if_neg hstatus, status_congr hsame]
  · rw [status_of_find? hrow, hbuilding, if_pos rfl, status_of_find? hrow', hready]

theorem Filled.scope_self (hf : Filled store t call u)
    (hrow : u.generations.find? (store.generationId call) = some row) :
    ∃ old, t.generations.find? (store.generationId call) = some old ∧ row.scope = old.scope := by
  rcases hf.self with ⟨_, hsame⟩ | ⟨old, row', hold, _, hrow', _, hscope⟩
  · exact ⟨row, hsame.symm.trans hrow, rfl⟩
  · cases Option.some.inj (hrow.symm.trans hrow')
    exact ⟨old, hold, hscope⟩

theorem status_begin (g : String) : (beginGeneration store t call).status g =
    if g = store.generationId call then some .building else t.status g := by
  split_ifs with hg
  · obtain ⟨row, hrow, hstatus, _⟩ := find?_begin_self store t call
    rw [hg, status_of_find? hrow, hstatus]
  · exact status_congr (find?_begin_of_ne hg)

theorem status_fail (fault : FTSFault) (g : String) : (failGeneration store t call fault).status g =
    if g = store.generationId call then (t.status g).map fun _ => .failed else t.status g := by
  split_ifs with hg
  · subst hg
    cases hrow : (failGeneration store t call fault).generations.find? (store.generationId call) with
    | none =>
      have hold := hrow
      rw [failGeneration, Table.find?_updateWhere, Option.map_eq_none_iff] at hold
      rw [FTSTables.status, FTSTables.status, hrow, hold]
      rfl
    | some row =>
      obtain ⟨hstatus, old, hold, _⟩ := find?_fail_self hrow
      rw [status_of_find? hrow, status_of_find? hold, hstatus]
      rfl
  · exact status_congr (find?_fail_of_ne hg)

theorem Filled.status_other (hf : Filled store t call u) {c : SyncCall}
    (hne : store.generationId c ≠ store.generationId call) :
    u.status (store.generationId c) = if Supersedes store t call c then some .superseded
      else t.status (store.generationId c) := by
  have hfind := hf.others _ hne
  rw [find?_supersedeOthers] at hfind
  cases hrow : t.generations.find? (store.generationId c) with
  | none =>
    rw [hrow] at hfind
    rw [FTSTables.status, FTSTables.status, hfind, hrow, if_neg]
    · rfl
    · rintro ⟨_, row, hfound, _⟩
      rw [hrow] at hfound
      cases hfound
  | some row =>
    rw [hrow, Option.map_some] at hfind
    have hid : row.generationId ≠ store.generationId call := by
      rw [Table.find?_key hrow]
      exact hne
    rw [status_of_find? hfind, status_of_find? hrow]
    by_cases hready : row.scope = call.scope ∧ row.status = .ready
    · rw [if_pos ⟨hready.1, hready.2, hid⟩, if_pos ⟨hne, row, hrow, hready⟩]
    · rw [if_neg fun h => hready ⟨h.1, h.2.1⟩, if_neg]
      rintro ⟨_, row', hfound, hready'⟩
      rw [hrow] at hfound
      cases hfound
      exact hready hready'

theorem isSome_begin (h : (t.status g).isSome) :
    ((beginGeneration store t call).status g).isSome := by
  rw [status_begin]
  split_ifs
  · rfl
  · exact h

theorem isSome_fail (h : (t.status g).isSome) (fault : FTSFault) :
    ((failGeneration store t call fault).status g).isSome := by
  rw [status_fail]
  split_ifs
  · rwa [Option.isSome_map]
  · exact h

theorem Filled.isSome (hf : Filled store t call u) {c : SyncCall}
    (h : (t.status (store.generationId c)).isSome) : (u.status (store.generationId c)).isSome := by
  by_cases hid : store.generationId c = store.generationId call
  · rw [hid, hf.status_self]
    split_ifs
    · rfl
    · rwa [← hid]
  · rw [hf.status_other hid]
    split_ifs
    · rfl
    · exact h

end Transactions

end CodeResearch.Retrieval
