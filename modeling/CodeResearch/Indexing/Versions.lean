import CodeResearch.Indexing.Leases

/-!
# The versions of a repository

At most one version is active and at most one is being built, the pointer of the
repository names the active one, and the artifacts of a published version are
those of the call that activated it.
-/
namespace CodeResearch.Indexing

/-- What no operation changes in a row. -/
structure VersionRow.Same (v w : VersionRow) : Prop where
  indexVersionId : v.indexVersionId = w.indexVersionId
  repoId : v.repoId = w.repoId
  sequence : v.sequence = w.sequence
  inputHash : v.inputHash = w.inputHash

theorem VersionRow.Same.refl (v : VersionRow) : v.Same v := ⟨rfl, rfl, rfl, rfl⟩

structure Sound (t : IndexTables) : Prop where
  active : ∀ v ∈ t.versions.rows, ∀ w ∈ t.versions.rows, v.repoId = w.repoId →
    v.status = .active → w.status = .active → v = w
  open_ : ∀ v ∈ t.versions.rows, ∀ w ∈ t.versions.rows, v.repoId = w.repoId →
    v.status.Open → w.status.Open → v = w
  pointer : ∀ r ∈ t.repositories.rows, ∀ id, r.activeVersionId = some id →
    ∃ v, t.versions.find? id = some v ∧ v.repoId = r.repoId ∧ v.status = .active
  unpublished : ∀ r ∈ t.repositories.rows, r.activeVersionId = none →
    ∀ v ∈ t.versions.rows, v.repoId = r.repoId → ¬ v.status.Published
  repository : ∀ v ∈ t.versions.rows, (t.repositories.find? v.repoId).isSome
  sequences : ∀ repoId, (t.versionsOf repoId).map VersionRow.sequence =
    List.range' 1 (t.versionsOf repoId).length

theorem sound_empty : Sound {} := by
  refine ⟨?_, ?_, ?_, ?_, ?_, fun _ => rfl⟩ <;> simp

variable {id : String}

section Rewrites

variable {t u : IndexTables} {f : VersionRow → VersionRow}

/-- A rewriting of rows keeps the sequences of every repository. -/
theorem map_sequence_versionsOf (hrows : u.versions.rows = t.versions.rows.map f)
    (hf : ∀ v ∈ t.versions.rows, (f v).Same v) (repoId : String) :
    (u.versionsOf repoId).map VersionRow.sequence =
      (t.versionsOf repoId).map VersionRow.sequence := by
  have hof : u.versionsOf repoId = (t.versionsOf repoId).map f := by
    unfold IndexTables.versionsOf
    rw [hrows, List.filter_map]
    congr 1
    apply List.filter_congr
    intro v hv
    simp [(hf v hv).repoId]
  rw [hof, List.map_map]
  apply List.map_congr_left
  intro v hv
  exact (hf v (List.mem_of_mem_filter hv)).sequence

theorem sequences_map (h : Sound t) (hrows : u.versions.rows = t.versions.rows.map f)
    (hf : ∀ v ∈ t.versions.rows, (f v).Same v) (repoId : String) :
    (u.versionsOf repoId).map VersionRow.sequence = List.range' 1 (u.versionsOf repoId).length := by
  have hmap := map_sequence_versionsOf hrows hf repoId
  have hlength : (u.versionsOf repoId).length = (t.versionsOf repoId).length := by
    simpa using congrArg List.length hmap
  rw [hmap, hlength]
  exact h.sequences repoId

theorem rows_setVersion (t : IndexTables) (v' : VersionRow) :
    (t.setVersion v').versions.rows =
      t.versions.rows.map fun v => if v.indexVersionId = v'.indexVersionId then v' else v :=
  Table.rows_replace t.versions v'

variable {v v' : VersionRow}

theorem same_setVersion (hv : t.versions.find? v.indexVersionId = some v)
    (hsame : v'.Same v) : ∀ w ∈ t.versions.rows,
      (if w.indexVersionId = v'.indexVersionId then v' else w).Same w := by
  intro w hw
  split_ifs with hkey
  · have heq : w = v := t.versions.eq_of_key_eq hw (Table.find?_mem hv)
      (hkey.trans hsame.indexVersionId)
    rw [heq]
    exact hsame
  · exact .refl w

theorem find?_map (hrows : u.versions.rows = t.versions.rows.map f)
    (hf : ∀ v ∈ t.versions.rows, (f v).Same v) (hv : t.versions.find? id = some v) :
    u.versions.find? id = some (f v) :=
  Table.find?_of_rows_map hrows (fun w hw => (hf w hw).indexVersionId) hv

/-- A rewriting that neither publishes nor withdraws a version and opens at most one. -/
theorem Sound.rewrite (h : Sound t) (hrepos : u.repositories = t.repositories)
    (hrows : u.versions.rows = t.versions.rows.map f) (hf : ∀ v ∈ t.versions.rows, (f v).Same v)
    (hactive : ∀ v ∈ t.versions.rows, (f v).status = .active ↔ v.status = .active)
    (hpublished : ∀ v ∈ t.versions.rows, (f v).status.Published ↔ v.status.Published)
    (hopen : ∀ v ∈ t.versions.rows, ∀ w ∈ t.versions.rows, v.repoId = w.repoId →
      (f v).status.Open → (f w).status.Open → v = w) : Sound u := by
  refine ⟨?_, ?_, ?_, ?_, ?_, sequences_map h hrows hf⟩
  · rw [hrows]
    simp only [List.mem_map]
    rintro _ ⟨v, hv, rfl⟩ _ ⟨w, hw, rfl⟩ hrepo hva hwa
    rw [(hf v hv).repoId, (hf w hw).repoId] at hrepo
    rw [h.active v hv w hw hrepo ((hactive v hv).mp hva) ((hactive w hw).mp hwa)]
  · rw [hrows]
    simp only [List.mem_map]
    rintro _ ⟨v, hv, rfl⟩ _ ⟨w, hw, rfl⟩ hrepo hvo hwo
    rw [(hf v hv).repoId, (hf w hw).repoId] at hrepo
    rw [hopen v hv w hw hrepo hvo hwo]
  · rw [hrepos]
    intro r hr id hid
    obtain ⟨v, hv, hrepo, hva⟩ := h.pointer r hr id hid
    have hmem := Table.find?_mem hv
    exact ⟨f v, find?_map hrows hf hv, (hf v hmem).repoId.trans hrepo, (hactive v hmem).mpr hva⟩
  · rw [hrepos, hrows]
    intro r hr hnone w hw hrepo hpub
    obtain ⟨v, hv, rfl⟩ := List.mem_map.mp hw
    rw [(hf v hv).repoId] at hrepo
    exact h.unpublished r hr hnone v hv hrepo ((hpublished v hv).mp hpub)
  · rw [hrepos, hrows]
    intro w hw
    obtain ⟨v, hv, rfl⟩ := List.mem_map.mp hw
    rw [(hf v hv).repoId]
    exact h.repository v hv

/-- An unpublished row is written, and stays unpublished. -/
theorem Sound.setVersion (h : Sound t)
    (hv : t.versions.find? v.indexVersionId = some v) (hsame : v'.Same v)
    (hold : ¬ v.status.Published) (hnew : ¬ v'.status.Published)
    (hopen : v'.status.Open → ∀ w ∈ t.versions.rows, w.repoId = v.repoId → w.status.Open → w = v) :
    Sound (t.setVersion v') := by
  have hnotActive : ∀ w : VersionRow, ¬ w.status.Published → w.status ≠ .active := by
    intro w hw hactive
    exact hw (by simp [VersionStatus.Published, hactive])
  have hself : ∀ w ∈ t.versions.rows, w.indexVersionId = v'.indexVersionId → w = v := fun w hw hkey =>
    t.versions.eq_of_key_eq hw (Table.find?_mem hv) (hkey.trans hsame.indexVersionId)
  apply h.rewrite (u := t.setVersion v') rfl (rows_setVersion t v') (same_setVersion hv hsame)
  · intro w hw
    split_ifs with hkey
    · rw [hself w hw hkey]
      exact iff_of_false (hnotActive v' hnew) (hnotActive v hold)
    · rfl
  · intro w hw
    split_ifs with hkey
    · rw [hself w hw hkey]
      exact iff_of_false hnew hold
    · rfl
  · intro w hw x hx hrepo hwo hxo
    split_ifs at hwo hxo with hkey hkey' hkey'
    · rw [hself w hw hkey, hself x hx hkey']
    · obtain rfl := hself w hw hkey
      exact (hopen hwo x hx hrepo.symm hxo).symm
    · obtain rfl := hself x hx hkey'
      exact hopen hxo w hw hrepo hwo
    · exact h.open_ w hw x hx hrepo hwo hxo

def publishedRow (v' w : VersionRow) : VersionRow :=
  if w.indexVersionId = v'.indexVersionId then v'
  else if w.repoId = v'.repoId ∧ w.status = .active then { w with status := .superseded } else w

/-- What `activate` and `rollback_to_version` do to the versions and the pointer. -/
def IndexTables.publish (t : IndexTables) (v' : VersionRow) : IndexTables :=
  ((t.supersede v'.repoId).setVersion v').setActive v'.repoId v'.indexVersionId

theorem rows_publish (t : IndexTables) (v' : VersionRow) :
    (t.publish v').versions.rows = t.versions.rows.map (publishedRow v') := by
  have hrows : (t.publish v').versions.rows = (t.supersede v'.repoId).versions.rows.map
      fun w => if w.indexVersionId = v'.indexVersionId then v' else w := rows_setVersion _ v'
  rw [hrows, IndexTables.supersede, Table.updateWhere, Table.rows_mapRows, List.map_map]
  apply List.map_congr_left
  intro w _
  unfold publishedRow
  by_cases hactive : w.repoId = v'.repoId ∧ w.status = .active
  · simp [hactive]
  · simp [hactive]

theorem repositories_publish (t : IndexTables) (v' : VersionRow) :
    (t.publish v').repositories.rows = t.repositories.rows.map fun r =>
      if r.repoId = v'.repoId then { r with activeVersionId := some v'.indexVersionId } else r := by
  have hrepos : (t.publish v').repositories = t.repositories.updateWhere
      (fun r => r.repoId = v'.repoId)
      (fun r => { r with activeVersionId := some v'.indexVersionId }) fun _ => rfl := rfl
  rw [hrepos, Table.updateWhere, Table.rows_mapRows]
  apply List.map_congr_left
  intro r _
  by_cases hr : r.repoId = v'.repoId <;> simp [hr]

theorem same_publishedRow (hv : t.versions.find? v.indexVersionId = some v)
    (hsame : v'.Same v) : ∀ w ∈ t.versions.rows, (publishedRow v' w).Same w := by
  intro w hw
  unfold publishedRow
  split_ifs with hkey hactive
  · rw [t.versions.eq_of_key_eq hw (Table.find?_mem hv) (hkey.trans hsame.indexVersionId)]
    exact hsame
  · exact ⟨rfl, rfl, rfl, rfl⟩
  · exact .refl w

variable {w : VersionRow}

theorem publishedRow_active (hv : t.versions.find? v.indexVersionId = some v)
    (hsame : v'.Same v) (hw : w ∈ t.versions.rows) (hrepo : w.repoId = v.repoId)
    (hactive : (publishedRow v' w).status = .active) : w = v := by
  unfold publishedRow at hactive
  split_ifs at hactive with hkey hold
  · exact t.versions.eq_of_key_eq hw (Table.find?_mem hv) (hkey.trans hsame.indexVersionId)
  · exact absurd ⟨hrepo.trans hsame.repoId.symm, hactive⟩ hold

theorem publishedRow_other (hv : t.versions.find? v.indexVersionId = some v)
    (hsame : v'.Same v) (hw : w ∈ t.versions.rows) (hrepo : w.repoId ≠ v.repoId) :
    publishedRow v' w = w := by
  unfold publishedRow
  rw [if_neg, if_neg]
  · rintro ⟨hsameRepo, _⟩
    exact hrepo (hsameRepo.trans hsame.repoId)
  · intro hkey
    rw [t.versions.eq_of_key_eq hw (Table.find?_mem hv) (hkey.trans hsame.indexVersionId)] at hrepo
    exact hrepo rfl

theorem Sound.publish (h : Sound t)
    (hv : t.versions.find? v.indexVersionId = some v) (hsame : v'.Same v)
    (hactive : v'.status = .active) : Sound (t.publish v') := by
  have hrows := rows_publish t v'
  have hf := same_publishedRow hv hsame
  have hself : publishedRow v' v = v' := if_pos hsame.indexVersionId.symm
  refine ⟨?_, ?_, ?_, ?_, ?_, sequences_map h hrows hf⟩
  · rw [hrows]
    simp only [List.mem_map]
    rintro _ ⟨w, hw, rfl⟩ _ ⟨x, hx, rfl⟩ hrepo hwa hxa
    rw [(hf w hw).repoId, (hf x hx).repoId] at hrepo
    by_cases hhere : w.repoId = v.repoId
    · rw [publishedRow_active hv hsame hw hhere hwa,
        publishedRow_active hv hsame hx (hrepo.symm.trans hhere) hxa]
    · rw [publishedRow_other hv hsame hw hhere] at hwa
      rw [publishedRow_other hv hsame hx (hrepo ▸ hhere)] at hxa
      rw [h.active w hw x hx hrepo hwa hxa]
  · rw [hrows]
    simp only [List.mem_map]
    have hopen : ∀ w, (publishedRow v' w).status.Open → w.status.Open := by
      intro w hw
      unfold publishedRow at hw
      split_ifs at hw
      · rw [hactive] at hw
        exact absurd hw (by decide)
      · exact absurd hw (by decide : ¬ VersionStatus.superseded.Open)
      · exact hw
    rintro _ ⟨w, hw, rfl⟩ _ ⟨x, hx, rfl⟩ hrepo hwo hxo
    rw [(hf w hw).repoId, (hf x hx).repoId] at hrepo
    rw [h.open_ w hw x hx hrepo (hopen w hwo) (hopen x hxo)]
  · intro r hr id hid
    rw [repositories_publish] at hr
    obtain ⟨r₀, hr₀, rfl⟩ := List.mem_map.mp hr
    split_ifs at hid ⊢ with hrepo
    · cases hid
      rw [hsame.indexVersionId]
      refine ⟨v', ?_, hrepo.symm, hactive⟩
      rw [find?_map hrows hf hv, hself]
    · obtain ⟨w, hw, hwr, hwa⟩ := h.pointer r₀ hr₀ id hid
      have hother : publishedRow v' w = w := by
        apply publishedRow_other hv hsame (Table.find?_mem hw)
        intro hhere
        exact hrepo (hwr.symm.trans (hhere.trans hsame.repoId.symm))
      refine ⟨w, ?_, hwr, hwa⟩
      rw [find?_map hrows hf hw, hother]
  · intro r hr hnone w hw hwr
    rw [repositories_publish] at hr
    obtain ⟨r₀, hr₀, rfl⟩ := List.mem_map.mp hr
    split_ifs at hnone hwr with hrepo
    · rw [hrows] at hw
      obtain ⟨x, hx, rfl⟩ := List.mem_map.mp hw
      have hother : publishedRow v' x = x := by
        apply publishedRow_other hv hsame hx
        intro hhere
        rw [(hf x hx).repoId] at hwr
        exact hrepo (hwr.symm.trans (hhere.trans hsame.repoId.symm))
      rw [hother] at hwr ⊢
      exact h.unpublished r₀ hr₀ hnone x hx hwr
  · rw [hrows]
    intro w hw
    obtain ⟨x, hx, rfl⟩ := List.mem_map.mp hw
    rw [(hf x hx).repoId]
    obtain ⟨r, hr⟩ := Option.isSome_iff_exists.mp (h.repository x hx)
    rw [Table.find?_of_rows_map (repositories_publish t v') _ hr]
    · rfl
    · intro r _
      split_ifs <;> rfl

end Rewrites

section Insertions

variable {t u : IndexTables}

/-- New repositories and other columns of the old ones do not matter. -/
theorem Sound.repositories (h : Sound t) (hversions : u.versions = t.versions)
    (hrows : ∀ r ∈ u.repositories.rows,
      (∃ r₀ ∈ t.repositories.rows, r₀.repoId = r.repoId ∧ r₀.activeVersionId = r.activeVersionId) ∨
        r.activeVersionId = none ∧ t.repositories.find? r.repoId = none)
    (hkept : ∀ repoId, (t.repositories.find? repoId).isSome →
      (u.repositories.find? repoId).isSome) : Sound u := by
  refine ⟨?_, ?_, ?_, ?_, ?_, ?_⟩
  · rw [hversions]
    exact h.active
  · rw [hversions]
    exact h.open_
  · rw [hversions]
    intro r hr id hid
    rcases hrows r hr with ⟨r₀, hr₀, hrepo, hactive⟩ | ⟨hnone, _⟩
    · rw [← hrepo]
      exact h.pointer r₀ hr₀ id (hactive.trans hid)
    · rw [hid] at hnone
      cases hnone
  · rw [hversions]
    intro r hr hnone v hv hrepo
    rcases hrows r hr with ⟨r₀, hr₀, hsame, hactive⟩ | ⟨_, hfresh⟩
    · exact h.unpublished r₀ hr₀ (hactive.trans hnone) v hv (hrepo.trans hsame.symm)
    · have hsome := h.repository v hv
      rw [hrepo, hfresh] at hsome
      cases hsome
  · rw [hversions]
    intro v hv
    exact hkept _ (h.repository v hv)
  · intro repoId
    unfold IndexTables.versionsOf
    rw [hversions]
    exact h.sequences repoId

theorem upsertRepository_ok {r : VersionRequest} (hu : t.upsertRepository r = .ok u) (h : Sound t) :
    Sound u ∧ u.versions = t.versions ∧ u.artifacts = t.artifacts ∧
      (u.repositories.find? r.repoId).isSome := by
  simp only [IndexTables.upsertRepository, except_bind_eq_ok_iff] at hu
  obtain ⟨_, _, hu⟩ := hu
  split at hu
  · rename_i row hrow
    cases hu
    have hkey : row.repoId = r.repoId := Table.find?_key hrow
    have hkept : ∀ repoId, (t.repositories.find? repoId).isSome →
        ((t.repositories.replace { row with displayName := r.displayName }).find? repoId).isSome := by
      intro repoId hsome
      by_cases hhere : repoId = row.repoId
      · have hfound : (t.repositories.replace { row with displayName := r.displayName }).find?
            repoId = some { row with displayName := r.displayName } :=
          Table.find?_replace_of_key hhere.symm hsome
        rw [hfound]
        rfl
      · rw [Table.find?_replace_of_ne t.repositories (r := { row with displayName := r.displayName })
          hhere]
        exact hsome
    refine ⟨h.repositories rfl ?_ hkept, rfl, rfl, hkept _ (by rw [hrow]; rfl)⟩
    intro x hx
    rw [Table.rows_replace] at hx
    obtain ⟨y, hy, rfl⟩ := List.mem_map.mp hx
    left
    split_ifs
    · exact ⟨row, Table.find?_mem hrow, rfl, rfl⟩
    · exact ⟨y, hy, rfl, rfl⟩
  · rename_i hnone
    simp only [except_bind_eq_ok_iff, orError_eq_ok_iff, except_pure_eq_ok_iff] at hu
    obtain ⟨_, _, repositories, hinsert, rfl⟩ := hu
    refine ⟨h.repositories rfl ?_ ?_, rfl, rfl, ?_⟩
    · intro x hx
      rcases (Table.mem_insert hinsert x).mp hx with hx | rfl
      · exact .inl ⟨x, hx, rfl, rfl⟩
      · exact .inr ⟨rfl, hnone⟩
    · intro repoId hsome
      obtain ⟨row, hrow⟩ := Option.isSome_iff_exists.mp hsome
      rw [Table.find?_insert_of_some hinsert hrow]
      rfl
    · have hfound := Table.find?_insert_self hinsert
      dsimp only at hfound
      rw [hfound]
      rfl

theorem foldr_max_range' (n b : ℕ) : (List.range' 1 n).foldr max b = max n b := by
  induction n generalizing b with
  | zero => simp
  | succ n ih =>
    rw [List.range'_concat, List.foldr_append, ih]
    simp only [List.foldr_cons, List.foldr_nil]
    omega

/-- A build starts in a repository without an open one. -/
theorem Sound.insertVersion (h : Sound t) {v : VersionRow}
    {versions : Table VersionRow.indexVersionId} (hinsert : t.versions.insert v = some versions)
    (hrepo : (t.repositories.find? v.repoId).isSome) (hbuilding : v.status = .building)
    (hsequence : v.sequence = t.nextSequence v.repoId)
    (hnone : ∀ w ∈ t.versions.rows, w.repoId = v.repoId → ¬ w.status.Open) :
    Sound { t with versions } := by
  have hmem := Table.mem_insert hinsert
  refine ⟨?_, ?_, ?_, ?_, ?_, ?_⟩
  · intro w hw x hx hsame hwa hxa
    rcases (hmem w).mp hw with hw | rfl
    · rcases (hmem x).mp hx with hx | rfl
      · exact h.active w hw x hx hsame hwa hxa
      · rw [hbuilding] at hxa
        cases hxa
    · rw [hbuilding] at hwa
      cases hwa
  · intro w hw x hx hsame hwo hxo
    rcases (hmem w).mp hw with hw | rfl
    · rcases (hmem x).mp hx with hx | rfl
      · exact h.open_ w hw x hx hsame hwo hxo
      · exact absurd hwo (hnone w hw hsame)
    · rcases (hmem x).mp hx with hx | rfl
      · exact absurd hxo (hnone x hx hsame.symm)
      · rfl
  · intro r hr id hid
    obtain ⟨w, hw, hwr, hwa⟩ := h.pointer r hr id hid
    exact ⟨w, Table.find?_insert_of_some hinsert hw, hwr, hwa⟩
  · intro r hr hactive w hw hwr
    rcases (hmem w).mp hw with hw | rfl
    · exact h.unpublished r hr hactive w hw hwr
    · rw [hbuilding]
      decide
  · intro w hw
    rcases (hmem w).mp hw with hw | rfl
    · exact h.repository w hw
    · exact hrepo
  · intro repoId
    have hof : (IndexTables.mk t.repositories versions t.artifacts).versionsOf repoId =
        t.versionsOf repoId ++ if v.repoId = repoId then [v] else [] := by
      unfold IndexTables.versionsOf
      rw [Table.rows_insert hinsert, List.filter_append]
      by_cases hhere : v.repoId = repoId <;> simp [hhere]
    rw [hof]
    split_ifs with hhere
    · have hseq := h.sequences repoId
      rw [List.map_append, List.length_append, hseq]
      subst hhere
      have hlast : v.sequence = 1 + (t.versionsOf v.repoId).length := by
        rw [hsequence, IndexTables.nextSequence, hseq, foldr_max_range', Nat.max_zero, Nat.add_comm]
      rw [List.length_singleton, List.range'_concat]
      simp [hlast]
    · rw [List.append_nil]
      exact h.sequences repoId

end Insertions

def IndexTables.Published (t : IndexTables) (id : String) : Prop :=
  ∃ v ∈ t.versions.rows, v.indexVersionId = id ∧ v.status.Published

/-- An operation that keeps the tables sound and publishes nothing new. -/
structure Quiet (t u : IndexTables) : Prop where
  sound : Sound u
  artifacts : u.artifacts = t.artifacts
  published : ∀ id, u.Published id ↔ t.Published id

section Operations

variable {config : IndexStore} {t u : IndexTables} {now : Timestamp}

theorem Quiet.refl (h : Sound t) : Quiet t t := ⟨h, rfl, fun _ => Iff.rfl⟩

theorem Quiet.trans {w : IndexTables} (h : Quiet t u) (h' : Quiet u w) : Quiet t w :=
  ⟨h'.sound, h'.artifacts.trans h.artifacts, fun id => (h'.published id).trans (h.published id)⟩

theorem published_map {f : VersionRow → VersionRow}
    (hrows : u.versions.rows = t.versions.rows.map f) (hf : ∀ v ∈ t.versions.rows, (f v).Same v)
    (id : String) :
    u.Published id ↔ ∃ v ∈ t.versions.rows, v.indexVersionId = id ∧ (f v).status.Published := by
  unfold IndexTables.Published
  rw [hrows]
  constructor
  · rintro ⟨w, hw, hid, hpub⟩
    obtain ⟨v, hv, rfl⟩ := List.mem_map.mp hw
    exact ⟨v, hv, (hf v hv).indexVersionId.symm.trans hid, hpub⟩
  · rintro ⟨v, hv, hid, hpub⟩
    exact ⟨f v, List.mem_map_of_mem hv, (hf v hv).indexVersionId.trans hid, hpub⟩

variable {v : VersionRow} {lease : VersionLease} {repoId : String}

theorem find?_self (hv : t.versions.find? id = some v) :
    t.versions.find? v.indexVersionId = some v :=
  Table.find?_of_mem (Table.find?_mem hv)

variable {v' : VersionRow} {owner : String}

theorem Quiet.setVersion (h : Sound t)
    (hv : t.versions.find? v.indexVersionId = some v) (hsame : v'.Same v)
    (hold : ¬ v.status.Published) (hnew : ¬ v'.status.Published)
    (hopen : v'.status.Open → ∀ w ∈ t.versions.rows, w.repoId = v.repoId → w.status.Open → w = v) :
    Quiet t (t.setVersion v') := by
  refine ⟨h.setVersion hv hsame hold hnew hopen, rfl, fun id => ?_⟩
  rw [published_map (rows_setVersion t v') (same_setVersion hv hsame)]
  unfold IndexTables.Published
  apply exists_congr
  intro w
  apply and_congr_right
  intro hw
  apply and_congr_right
  intro _
  split_ifs with hkey
  · rw [t.versions.eq_of_key_eq hw (Table.find?_mem hv) (hkey.trans hsame.indexVersionId)]
    exact iff_of_false hnew hold
  · rfl

/-- A publication adds its version to the published ones. -/
theorem published_publish (hv : t.versions.find? v.indexVersionId = some v)
    (hsame : v'.Same v) (hactive : v'.status = .active) (id : String) :
    (t.publish v').Published id ↔ id = v.indexVersionId ∨ t.Published id := by
  rw [published_map (rows_publish t v') (same_publishedRow hv hsame)]
  constructor
  · rintro ⟨w, hw, rfl, hpub⟩
    unfold publishedRow at hpub
    split_ifs at hpub with hkey hold
    · exact .inl (hkey.trans hsame.indexVersionId)
    · exact .inr ⟨w, hw, rfl, by simp [VersionStatus.Published, hold.2]⟩
    · exact .inr ⟨w, hw, rfl, hpub⟩
  · rintro (rfl | ⟨w, hw, rfl, hpub⟩)
    · refine ⟨v, Table.find?_mem hv, rfl, ?_⟩
      rw [publishedRow, if_pos hsame.indexVersionId.symm, hactive]
      decide
    · refine ⟨w, hw, rfl, ?_⟩
      unfold publishedRow
      split_ifs
      · rw [hactive]
        decide
      · exact (by decide : VersionStatus.superseded.Published)
      · exact hpub

theorem not_published_of_open {s : VersionStatus} (h : s.Open) : ¬ s.Published := by
  cases s <;> simp_all [VersionStatus.Open, VersionStatus.Published]

theorem Quiet.fail (h : Sound t) (hv : t.versions.find? id = some v) (hopen : v.status.Open)
    (error : String) :
    Quiet t (t.setVersion (v.fail error)) := by
  refine Quiet.setVersion h (find?_self hv) ⟨rfl, rfl, rfl, rfl⟩ (not_published_of_open hopen) ?_ ?_
  · exact (by decide : ¬ VersionStatus.failed.Published)
  · exact fun hfailed => absurd hfailed (by decide : ¬ VersionStatus.failed.Open)

theorem quiet_resumeOrReuse (h : Sound t) {row : VersionRow}
    (hrow : t.versions.find? row.indexVersionId = some row)
    (hrepo : row.repoId = repoId)
    (hok : resumeOrReuse config t now row repoId owner = .ok (lease, u)) : Quiet t u := by
  unfold resumeOrReuse at hok
  split_ifs at hok with hactive
  · cases hok
    exact .refl h
  · simp only [except_bind_eq_ok_iff, ensure_eq_ok_iff, except_pure_eq_ok_iff, Prod.mk.injEq] at hok
    obtain ⟨_, hsuperseded, _, _, _, _, _, hcompeting, _, rfl⟩ := hok
    refine Quiet.setVersion h hrow ⟨rfl, rfl, rfl, rfl⟩ ?_ ?_ ?_
    · simp [VersionStatus.Published, hactive, hsuperseded]
    · exact (by decide : ¬ VersionStatus.building.Published)
    · intro _ w hw hwr hwo
      by_contra hne
      refine hcompeting w hw ⟨hwr.trans hrepo, hwo, fun hkey => hne ?_⟩
      exact t.versions.eq_of_key_eq hw (Table.find?_mem hrow) hkey

/-- After the stale build has failed, the repository has no open one. -/
theorem quiet_failStale (h : Sound t) (hok : failStale t now repoId = .ok u) :
    Quiet t u ∧ u.repositories = t.repositories ∧
      ∀ w ∈ u.versions.rows, w.repoId = repoId → ¬ w.status.Open := by
  unfold failStale at hok
  split at hok
  · rename_i hnone
    cases hok
    refine ⟨.refl h, rfl, fun w hw hwr hwo => ?_⟩
    have hnot := List.find?_eq_none.mp hnone w hw
    simp [hwr, hwo] at hnot
  · rename_i build hbuild
    simp only [except_bind_eq_ok_iff, except_pure_eq_ok_iff] at hok
    obtain ⟨_, _, rfl⟩ := hok
    have hmem := List.mem_of_find?_eq_some hbuild
    have hfound : build.repoId = repoId ∧ build.status.Open := by
      simpa using List.find?_some hbuild
    refine ⟨Quiet.fail h (Table.find?_of_mem hmem) hfound.2 _, rfl, ?_⟩
    rw [rows_setVersion]
    intro w hw hwr hwo
    obtain ⟨x, hx, rfl⟩ := List.mem_map.mp hw
    split_ifs at hwr hwo with hkey
    · exact absurd hwo (by decide : ¬ VersionStatus.failed.Open)
    · have hsame := h.open_ x hx build hmem (hwr.trans hfound.1.symm) hwo hfound.2
      rw [hsame] at hkey
      exact hkey rfl

theorem quiet_beginVersion (h : Sound t) {r : VersionRequest}
    (hok : beginVersion config t now r owner = .ok (lease, u)) :
    Quiet t u := by
  simp only [beginVersion, except_bind_eq_ok_iff] at hok
  obtain ⟨t₁, hupsert, hok⟩ := hok
  obtain ⟨hsound, hversions, hartifacts, hrepo⟩ := upsertRepository_ok hupsert h
  have hquiet : Quiet t t₁ :=
    ⟨hsound, hartifacts, fun id => by unfold IndexTables.Published; rw [hversions]⟩
  apply hquiet.trans
  split at hok
  · rename_i existing hexisting
    have hmem := List.mem_of_find?_eq_some hexisting
    have hhere : existing.repoId = r.repoId ∧ existing.inputHash = r.inputHash := by
      simpa using List.find?_some hexisting
    exact quiet_resumeOrReuse hsound (Table.find?_of_mem hmem) hhere.1 hok
  · simp only [except_bind_eq_ok_iff, orError_eq_ok_iff, except_pure_eq_ok_iff, Prod.mk.injEq] at hok
    obtain ⟨t₂, hfail, versions, hinsert, _, rfl⟩ := hok
    obtain ⟨hstale, hrepos, hnone⟩ := quiet_failStale hsound hfail
    apply hstale.trans
    refine ⟨?_, rfl, fun id => ?_⟩
    · refine hstale.sound.insertVersion hinsert ?_ rfl rfl hnone
      rw [hrepos]
      exact hrepo
    · unfold IndexTables.Published
      constructor
      · rintro ⟨w, hw, hid, hpub⟩
        rcases (Table.mem_insert hinsert w).mp hw with hw | rfl
        · exact ⟨w, hw, hid, hpub⟩
        · exact absurd hpub (by simp [newVersion, VersionStatus.Published])
      · rintro ⟨w, hw, hid, hpub⟩
        exact ⟨w, (Table.mem_insert hinsert w).mpr (.inl hw), hid, hpub⟩

theorem quiet_markReady (h : Sound t) {r : Unit}
    (hok : markReady config t now lease = .ok (r, u)) : Quiet t u := by
  unfold markReady at hok
  split_ifs at hok
  · cases hok
    exact .refl h
  · split at hok
    · cases hok
    · rename_i v hfilter
      cases hok
      obtain ⟨hv, hbuilding⟩ := Option.filter_eq_some_iff.mp hfilter
      simp only [decide_eq_true_eq] at hbuilding
      have hopen : v.status.Open := by
        rw [hbuilding.1]
        decide
      refine Quiet.setVersion h (find?_self hv) ⟨rfl, rfl, rfl, rfl⟩ (not_published_of_open hopen)
        ?_ ?_
      · exact (by decide : ¬ VersionStatus.ready.Published)
      · intro _ w hw hwr hwo
        exact h.open_ w hw v (Table.find?_mem hv) hwr hwo hopen

theorem quiet_markFailed (h : Sound t) {error : String} {r : Unit}
    (hok : markFailed t lease error = .ok (r, u)) : Quiet t u := by
  unfold markFailed at hok
  split_ifs at hok
  · cases hok
    exact .refl h
  · split at hok
    · cases hok
      exact .refl h
    · rename_i v hfilter
      cases hok
      obtain ⟨hv, hopen⟩ := Option.filter_eq_some_iff.mp hfilter
      exact Quiet.fail h hv (by simpa using hopen) error

theorem quiet_rollbackToVersion (h : Sound t) {versionId : String} {r : Unit}
    (hok : rollbackToVersion t now repoId versionId = .ok (r, u)) : Quiet t u := by
  simp only [rollbackToVersion, except_bind_eq_ok_iff, orError_eq_ok_iff, except_pure_eq_ok_iff,
    Prod.mk.injEq] at hok
  obtain ⟨v, hfilter, _, rfl⟩ := hok
  obtain ⟨hv, hpub⟩ := Option.filter_eq_some_iff.mp hfilter
  simp only [decide_eq_true_eq] at hpub
  obtain ⟨rfl, hpub⟩ := hpub
  have hid : v.indexVersionId = versionId := Table.find?_key hv
  have hself := find?_self hv
  let v' : VersionRow := { v with status := .active, activatedAt := some now }
  have hsame : v'.Same v := ⟨rfl, rfl, rfl, rfl⟩
  have hactive : v'.status = .active := rfl
  have hpublish : ((t.supersede v.repoId).setVersion v').setActive v.repoId versionId =
      t.publish v' := by
    rw [← hid]
    rfl
  rw [hpublish]
  refine ⟨h.publish hself hsame hactive, rfl, fun id => ?_⟩
  rw [published_publish hself hsame hactive, or_iff_right_of_imp]
  rintro rfl
  exact ⟨v, Table.find?_mem hv, rfl, hpub⟩

/-- A successful `activate` publishes its version with its artifacts. -/
structure Activates (t u : IndexTables) (id : String) (a : IndexArtifacts) : Prop where
  sound : Sound u
  fresh : ¬ t.Published id
  published : ∀ other, u.Published other ↔ other = id ∨ t.Published other
  artifacts : ∀ other, u.artifacts.itemsOf other = if other = id then a else t.artifacts.itemsOf other

theorem activates_activate (h : Sound t) {artifacts : IndexArtifacts}
    {r : Timestamp} (hreused : lease.reused = false)
    (hok : activate t now lease artifacts = .ok (r, u)) :
    Activates t u lease.indexVersionId artifacts := by
  unfold activate at hok
  rw [if_neg (by simp [hreused])] at hok
  simp only [except_bind_eq_ok_iff, orError_eq_ok_iff, except_pure_eq_ok_iff, Prod.mk.injEq] at hok
  obtain ⟨_, _, v, hfilter, tables, htables, _, _, _, rfl⟩ := hok
  obtain ⟨hv, hready⟩ := Option.filter_eq_some_iff.mp hfilter
  simp only [decide_eq_true_eq] at hready
  have hid : v.indexVersionId = lease.indexVersionId := Table.find?_key hv
  have hself := find?_self hv
  rw [← hid] at htables ⊢
  let v' : VersionRow :=
    { v with
      status := .active
      activatedAt := some now
      leaseOwner := none
      leaseExpiresAt := none
      error := none }
  have hsame : v'.Same v := ⟨rfl, rfl, rfl, rfl⟩
  have hactive : v'.status = .active := rfl
  have hstored : Sound { t with artifacts := tables } :=
    ⟨h.active, h.open_, h.pointer, h.unpublished, h.repository, h.sequences⟩
  refine ⟨?_, ?_, ?_, ?_⟩
  · exact hstored.publish hself hsame hactive
  · rintro ⟨w, hw, hkey, hpub⟩
    rw [t.versions.eq_of_key_eq hw (Table.find?_mem hv) hkey, hready.1] at hpub
    exact absurd hpub (by decide)
  · intro other
    exact published_publish (t := { t with artifacts := tables }) hself hsame hactive other
  · intro other
    exact ArtifactTables.itemsOf_replaceArtifacts htables other

end Operations

/-- The invariant of the store with its activations. -/
structure IndexRun.Sound (s : IndexRun) : Prop where
  tables : Indexing.Sound s.tables
  keys : (s.activations.map Prod.fst).Nodup
  published : ∀ id, s.tables.Published id → (id, s.tables.artifacts.itemsOf id) ∈ s.activations
  activated : ∀ a ∈ s.activations, s.tables.Published a.1

section Runs

variable {config : IndexStore} {s : IndexRun} {now : Timestamp}

variable {u t : IndexTables}

theorem IndexRun.Sound.quiet (h : s.Sound) (hquiet : Quiet s.tables u) :
    IndexRun.Sound ⟨u, s.activations ++ []⟩ := by
  refine ⟨hquiet.sound, ?_, ?_, ?_⟩
  · rw [List.append_nil]
    exact h.keys
  · intro id hid
    rw [List.append_nil, hquiet.artifacts]
    exact h.published id ((hquiet.published id).mp hid)
  · intro a ha
    rw [List.append_nil] at ha
    exact (hquiet.published a.1).mpr (h.activated a ha)

theorem IndexRun.Sound.activates (h : s.Sound) {a : IndexArtifacts}
    (hactivates : Activates s.tables u id a) :
    IndexRun.Sound ⟨u, s.activations ++ [(id, a)]⟩ := by
  have hfresh : id ∉ s.activations.map Prod.fst := by
    intro hmem
    obtain ⟨b, hb, rfl⟩ := List.mem_map.mp hmem
    exact hactivates.fresh (h.activated b hb)
  refine ⟨hactivates.sound, ?_, ?_, ?_⟩
  · rw [List.map_append, List.nodup_append]
    refine ⟨h.keys, by simp, ?_⟩
    rintro x hx y hy rfl
    rw [List.map_singleton, List.mem_singleton] at hy
    rw [hy] at hx
    exact hfresh hx
  · intro other hother
    rw [hactivates.artifacts]
    rcases (hactivates.published other).mp hother with rfl | hold
    · rw [if_pos rfl]
      exact List.mem_append_right _ (List.mem_singleton.mpr rfl)
    · have hne : other ≠ id := by
        rintro rfl
        exact hactivates.fresh hold
      rw [if_neg hne]
      exact List.mem_append_left _ (h.published other hold)
  · intro b hb
    rcases List.mem_append.mp hb with hb | hb
    · exact (hactivates.published b.1).mpr (.inr (h.activated b hb))
    · rw [List.mem_singleton.mp hb]
      exact (hactivates.published id).mpr (.inl rfl)

theorem quiet_transact {α : Type} {x : Except StoreFault (α × IndexTables)}
    (h : Sound t) (hok : ∀ a u, x = .ok (a, u) → Quiet t u) : Quiet t (transact t x).2 := by
  rcases transact_cases t x with ⟨_, _, hkept⟩ | ⟨a, u, hreturns, hnew⟩
  · rw [hkept]
    exact .refl h
  · rw [hnew]
    exact hok a u hreturns

/-- Every operation keeps the invariant. -/
theorem sound_perform (h : s.Sound) (operation : IndexOperation) :
    (s.perform config (now, operation)).Sound := by
  unfold IndexRun.perform IndexTables.published IndexTables.perform
  cases operation with
  | beginVersion r owner =>
    exact h.quiet (quiet_transact h.tables fun _ _ hok => quiet_beginVersion h.tables hok)
  | markReady lease =>
    exact h.quiet (quiet_transact h.tables fun _ _ hok => quiet_markReady h.tables hok)
  | markFailed lease error =>
    exact h.quiet (quiet_transact h.tables fun _ _ hok => quiet_markFailed h.tables hok)
  | rollbackToVersion repoId versionId =>
    exact h.quiet (quiet_transact h.tables fun _ _ hok => quiet_rollbackToVersion h.tables hok)
  | activate lease artifacts =>
    dsimp only
    cases hok : activate s.tables now lease artifacts with
    | error fault => exact h.quiet (.refl h.tables)
    | ok result =>
      obtain ⟨r, u⟩ := result
      dsimp only [transact]
      cases hreused : lease.reused with
      | false => exact h.activates (activates_activate h.tables hreused hok)
      | true =>
        unfold activate at hok
        rw [if_pos hreused] at hok
        cases hok
        exact h.quiet (.refl h.tables)

theorem sound_start : IndexRun.Sound {} := by
  refine ⟨sound_empty, ?_, ?_, ?_⟩ <;> simp [IndexTables.Published]

theorem sound_run {events : List IndexEvent} (hrun : (machine config).Run Machine.Free {} events s) :
    s.Sound := by
  apply hrun.invariant IndexRun.Sound _ sound_start
  rintro t ⟨now, operation⟩ u h _ hstep
  cases hstep
  exact sound_perform h operation

theorem Sound.pointer_eq (h : Indexing.Sound t) {v : VersionRow}
    (hv : v ∈ t.versions.rows) (hactive : v.status = .active) {r : RepositoryRow}
    (hr : t.repositories.find? v.repoId = some r) : r.activeVersionId = some v.indexVersionId := by
  have hrepo : r.repoId = v.repoId := Table.find?_key hr
  cases hid : r.activeVersionId with
  | none =>
    have hnot := h.unpublished r (Table.find?_mem hr) hid v hv hrepo.symm
    exact absurd (by simp [VersionStatus.Published, hactive]) hnot
  | some id =>
    obtain ⟨w, hw, hwr, hwa⟩ := h.pointer r (Table.find?_mem hr) id hid
    have hsame := h.active v hv w (Table.find?_mem hw) (hrepo.symm.trans hwr.symm) hactive hwa
    rw [hsame, Table.find?_key hw]

/-- What holds in every reachable state of the store. -/
structure IndexInvariant (s : IndexRun) : Prop where
  active : ∀ v ∈ s.tables.versions.rows, ∀ w ∈ s.tables.versions.rows, v.repoId = w.repoId →
    v.status = .active → w.status = .active → v = w
  open_ : ∀ v ∈ s.tables.versions.rows, ∀ w ∈ s.tables.versions.rows, v.repoId = w.repoId →
    v.status.Open → w.status.Open → v = w
  pointer : ∀ v ∈ s.tables.versions.rows, v.status = .active →
    ∃ r, s.tables.repositories.find? v.repoId = some r ∧ r.activeVersionId = some v.indexVersionId
  activated : ∀ a ∈ s.activations, ∃ v r, s.tables.versions.find? a.1 = some v ∧
    s.tables.repositories.find? v.repoId = some r ∧ r.activeVersionId ≠ none
  sequences : ∀ repoId, (s.tables.versionsOf repoId).map VersionRow.sequence =
    List.range' 1 (s.tables.versionsOf repoId).length
  artifacts : ∀ v ∈ s.tables.versions.rows, v.status.Published → ∀ a,
    (v.indexVersionId, a) ∈ s.activations ↔ a = s.tables.artifacts.itemsOf v.indexVersionId

theorem indexInvariant_run {events : List IndexEvent}
    (hrun : (machine config).Run Machine.Free {} events s) : IndexInvariant s := by
  have hsound := sound_run hrun
  refine ⟨hsound.tables.active, hsound.tables.open_, ?_, ?_, hsound.tables.sequences, ?_⟩
  · intro v hv hactive
    obtain ⟨r, hr⟩ := Option.isSome_iff_exists.mp (hsound.tables.repository v hv)
    exact ⟨r, hr, hsound.tables.pointer_eq hv hactive hr⟩
  · intro a ha
    obtain ⟨v, hv, hid, hpub⟩ := hsound.activated a ha
    obtain ⟨r, hr⟩ := Option.isSome_iff_exists.mp (hsound.tables.repository v hv)
    refine ⟨v, r, ?_, hr, fun hnone => ?_⟩
    · rw [← hid]
      exact Table.find?_of_mem hv
    · exact hsound.tables.unpublished r (Table.find?_mem hr) hnone v hv (Table.find?_key hr).symm hpub
  · intro v hv hpub a
    have hrecorded := hsound.published v.indexVersionId ⟨v, hv, rfl, hpub⟩
    constructor
    · intro ha
      have hsame := List.inj_on_of_nodup_map hsound.keys ha hrecorded rfl
      exact congrArg Prod.snd hsame
    · rintro rfl
      exact hrecorded

def rebuild : List IndexEvent :=
  [(0, .beginVersion demoRequest "first"), (1, .markReady firstLease),
    (2, .activate firstLease { indexedFiles := [{ path := "model.py" }] }),
    (3, .beginVersion { demoRequest with inputHash := "changed" } "second"),
    (4, .markReady ⟨"idx_repo2changed", 2, some "second", false, none⟩),
    (5, .activate ⟨"idx_repo2changed", 2, some "second", false, none⟩ {}),
    (6, .rollbackToVersion "repo" "idx_repo1input")]

theorem indexInvariant_rebuild :
    ∃ s, s.activations.length = 2 ∧ IndexInvariant s := by
  refine ⟨rebuild.foldl (IndexRun.perform demoStore) {}, ?_, ?_⟩
  · decide +kernel
  · exact indexInvariant_run (Machine.run_total (IndexRun.perform demoStore) rfl)

end Runs

end CodeResearch.Indexing
