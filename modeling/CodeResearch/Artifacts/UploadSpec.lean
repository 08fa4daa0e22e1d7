import CodeResearch.Artifacts.PublishSpec

/-!
# Where `upload_artifact` leaves its blob and its record

The first three records of an upload are saved outside of its `try` block, so that
their failures leave the staged blob behind.
-/
namespace CodeResearch.Artifacts

/-- The `try` block of `upload_artifact` gets as far as its last `save_artifact`. -/
structure Env.Uploads (env : Env Site) (cfg : StoreConfig) (final : String) : Prop where
  readStaging : env.fault .readStaging = none
  validateFile : env.fault .validateFile = none
  finalizes : env.Finalizes cfg final

/-- A blob that stays staged while its record is not available. -/
def Stuck (w : World) (id : String) (source : Path) (content : Bytes) (t : World) : Prop :=
  t = w.write source content ∨
    ∃ r, r.artifactId = id ∧ r.status ≠ .available ∧ t = (w.write source content).put r

def Env.Strands (env : Env Site) (cfg : StoreConfig) (req : UploadRequest) : Prop :=
  env.fault .access = none ∧ req.localStore = true ∧ ∃ type, req.type? = some type ∧
    env.Stages (some type.maxBytes) req.source ∧
      ((∃ site ∈ [Site.saveStaging, .saveQuarantined, .saveValidating], env.fault site ≠ none) ∨
        env.Uploads cfg (req.storageKey type) ∧ env.fault .saveAvailable ≠ none)

variable {validating : ArtifactRecord}

section Upload

variable {cfg : StoreConfig} {env : Env Site} {w : World} {id key final : String} {source : Path}

theorem uploadRecord_ends (h : Placed cfg w id key final source) (content : Bytes)
    (hid : validating.artifactId = id) (hstatus : validating.status = .validating)
    (hkey : validating.storageKey = key) (hhash : validating.contentHash = cfg.sha256 content)
    (hsize : validating.sizeBytes = content.length) :
    (uploadRecord cfg env validating final).Ends ((w.write source content).put validating)
      (fun _ t => Published cfg w id final content t ∧ env.fault .saveAvailable = none)
      fun _ t => (t = (w.write source content).put validating ∧ ¬ env.Uploads cfg final) ∨
        (∃ q, cfg.resolve final = .ok q ∧ t = (w.write q content).put validating) ∧
          env.Uploads cfg final ∧ env.fault .saveAvailable ≠ none := by
  apply Exec.Ends.bind (Q := fun _ t => t = (w.write source content).put validating ∧
    env.fault .readStaging = none)
  · apply Exec.ends_faulting
    · intro e hfault
      exact .inl ⟨rfl, fun hall => by simp [hall.readStaging] at hfault⟩
    · intro hread
      have hresolve : (resolvePath cfg validating.storageKey).runOn
          ((w.write source content).put validating) =
            (.ok source, (w.write source content).put validating) := by
        rw [resolvePath, Exec.runOn_prim, hkey, h.staging]
      have hpath : (pathForRead cfg validating.storageKey).runOn
          ((w.write source content).put validating) =
            (.ok source, (w.write source content).put validating) := by
        rw [pathForRead, Exec.runOn_bind_ok hresolve]
        simp [World.write]
      apply Exec.ends_of_ok (a := ()) (t := (w.write source content).put validating)
      · rw [Exec.runOn_bind_ok hpath]
        rfl
      · exact ⟨rfl, hread⟩
  rintro _ _ ⟨rfl, hread⟩
  apply Exec.Ends.bind (Q := fun _ t => t = (w.write source content).put validating ∧
    env.fault .validateFile = none)
  · apply check_ends
    · intro e hfault
      exact .inl ⟨rfl, fun hall => by simp [hall.validateFile] at hfault⟩
    · intro hvalid
      exact ⟨rfl, hvalid⟩
  rintro _ _ ⟨rfl, hvalid⟩
  apply Exec.Ends.bind (Q := fun _ t => (∃ q, cfg.resolve final = .ok q ∧
    t = (w.write q content).put validating) ∧ env.Finalizes cfg final)
  · rw [hkey, hhash]
    apply (finalize_ends h content).mono (fun _ _ hq => hq)
    rintro e t ⟨ht, hfinal⟩
    exact .inl ⟨ht, fun hall => hfinal hall.finalizes⟩
  rintro _ _ ⟨⟨q, hq, rfl⟩, hfinal⟩
  have hall : env.Uploads cfg final := ⟨hread, hvalid, hfinal⟩
  apply Exec.Ends.bind (Q := fun _ t => Published cfg w id final content t ∧
    env.fault .saveAvailable = none)
  · refine (save_next_ends h (w.write q content) rfl .validating .available hid (by exact hid)
      hstatus (by rfl) (by decide) (.inr (by rfl))).mono ?_ ?_
    · rintro _ t ⟨rfl, hsave⟩
      refine ⟨⟨q, _, hq, ?_, rfl⟩, hsave⟩
      exact ⟨hid, rfl, rfl, hhash, hsize⟩
    · rintro e t ⟨ht, hsave⟩
      exact .inr ⟨⟨q, hq, ht⟩, hall, hsave⟩
  rintro _ t hpublished
  exact Exec.ends_pure hpublished

theorem UploadType.of_type? {req : UploadRequest} {type : UploadType} (h : req.type? = some type) :
    type.suffix.toList.head? = some '.' ∧ '/' ∉ type.suffix.toList := by
  unfold UploadRequest.type? at h
  dsimp only at h
  split_ifs at h <;> cases h <;> decide

theorem UploadRequest.placed (req : UploadRequest) {type : UploadType}
    (htype : req.type? = some type)
    (h : Fresh cfg w (artifactId req.artifact) (stagingKey (artifactId req.artifact) req.staging)
      (req.storageKey type)) :
    Placed cfg w (artifactId req.artifact) (stagingKey (artifactId req.artifact) req.staging)
      (req.storageKey type) (stagingPath cfg req.artifact req.staging) := by
  obtain ⟨hdotted, hsep⟩ := UploadType.of_type? htype
  have hfresh : Fresh cfg w (artifactId req.artifact)
      (stagingKey (artifactId req.artifact) req.staging)
      ((req.workspaceId ++ "/" ++ req.projectId) ++ "/" ++ artifactId req.artifact ++ type.suffix) :=
    h
  exact hfresh.placed hdotted hsep

/-- A clean-up of `upload_artifact`, whatever it raises then. -/
theorem abandonUpload_ends (h : Placed cfg w id key final source) (hclean : env.CleansUp)
    {u v : World} (hv : v.records = w.records) (hu : u.remove source = v)
    {r r' : ArtifactRecord} (hid : r.artifactId = id) (hid' : r'.artifactId = id)
    (hstatus : r.status ∈ [ArtifactStatus.staging, .quarantined, .validating])
    (hstatus' : r'.status ∈ [ArtifactStatus.orphaned, .rejected]) (hkey : r'.storageKey = key)
    {α : Type} {Q : α → World → Prop} (e : Exc) :
    (do
      deleteStaging cfg env key
      save env .saveAborted r'
      throw e : Exec Exc World α).Ends (u.put r) Q
      fun _ t => ∃ r, r.artifactId = id ∧ r.status ≠ .available ∧ t = v.put r := by
  apply (deleteStaging_ends h hclean.deleteStaging).bind
  rintro _ t rfl
  have hremove : (u.put r).remove source = v.put r := by
    rw [← hu]
    rfl
  rw [hremove]
  apply (saveAborted_ends h hclean hv hid hid' hstatus hstatus' hkey).bind
  rintro _ t rfl
  refine Exec.ends_throw ⟨r', hid', ?_, rfl⟩
  intro havailable
  rw [havailable] at hstatus'
  exact absurd hstatus' (by decide)

/-- Every exit of `upload_artifact` publishes the file or leaves no blob, unless one of
its records is not saved. -/
theorem uploadArtifact_ends (req : UploadRequest)
    (hfresh : ∀ type, req.type? = some type → Fresh cfg w (artifactId req.artifact)
      (stagingKey (artifactId req.artifact) req.staging) (req.storageKey type))
    (hclean : env.CleansUp) :
    (uploadArtifact cfg env req).Ends w
      (fun _ t => (∃ type, req.type? = some type ∧ Published cfg w (artifactId req.artifact)
        (req.storageKey type) (contentOf req.source) t) ∧ ¬ env.Strands cfg req)
      fun _ t => (Clean w (artifactId req.artifact) t ∧ ¬ env.Strands cfg req) ∨
        (Stuck w (artifactId req.artifact) (stagingPath cfg req.artifact req.staging)
            (contentOf req.source) t ∨
          ∃ type, req.type? = some type ∧ Leaked cfg w (artifactId req.artifact)
            (req.storageKey type) (contentOf req.source) t) ∧ env.Strands cfg req := by
  apply Exec.Ends.bind (Q := fun _ t => t = w ∧ env.fault .access = none)
  · apply check_ends
    · intro e hfault
      exact .inl ⟨.inl rfl, fun hstrands => by simp [hstrands.1] at hfault⟩
    · intro haccess
      exact ⟨rfl, haccess⟩
  rintro _ t ⟨ht, haccess⟩
  rw [ht]
  cases htype : req.type? with
  | none =>
    apply Exec.ends_throw
    refine .inl ⟨.inl rfl, ?_⟩
    rintro ⟨_, _, type, hsome, _⟩
    rw [htype] at hsome
    cases hsome
  | some type =>
    have h := req.placed htype (hfresh type htype)
    dsimp only
    split
    · rename_i hremote
      apply Exec.ends_throw
      exact .inl ⟨.inl rfl, fun hstrands => hremote hstrands.2.1⟩
    rename_i hlocal
    have hlocal : req.localStore = true := by simpa using hlocal
    -- what the condition says once the upload is staged
    have hstrands : env.Stages (some type.maxBytes) req.source → (env.Strands cfg req ↔
        ((∃ site ∈ [Site.saveStaging, .saveQuarantined, .saveValidating],
          env.fault site ≠ none) ∨
        env.Uploads cfg (req.storageKey type) ∧ env.fault .saveAvailable ≠ none)) := by
      intro hstages
      constructor
      · rintro ⟨_, _, type', hsome, _, hcause⟩
        rw [htype, Option.some.injEq] at hsome
        rwa [hsome]
      · exact fun hcause => ⟨haccess, hlocal, type, htype, hstages, hcause⟩
    apply Exec.Ends.bind (Q := fun r t => r = (stagingKey (artifactId req.artifact) req.staging,
        cfg.sha256 (contentOf req.source), (contentOf req.source).length) ∧
      t = w.write (stagingPath cfg req.artifact req.staging) (contentOf req.source) ∧
      env.Stages (some type.maxBytes) req.source)
    · apply (stage_ends _ req.source h.staged).handle
      intro e t hends
      obtain ⟨rfl, hstages⟩ := hends hclean.unlinkStaging
      have hnot : ¬ env.Strands cfg req := by
        rintro ⟨_, _, type', hsome, hstages', _⟩
        rw [htype, Option.some.injEq] at hsome
        exact hstages (hsome ▸ hstages')
      split <;> exact Exec.ends_throw (.inl ⟨.inl rfl, hnot⟩)
    rintro _ t ⟨rfl, rfl, hstages⟩
    have hstrands := hstrands hstages
    have hunsaved : ∀ site ∈ [Site.saveStaging, .saveQuarantined, .saveValidating],
        env.fault site ≠ none → env.Strands cfg req :=
      fun site hsite hfault => hstrands.mpr (.inl ⟨site, hsite, hfault⟩)
    apply Exec.Ends.bind (Q := fun _ t => t = (w.write (stagingPath cfg req.artifact req.staging)
      (contentOf req.source)).put (req.record type (stagingKey (artifactId req.artifact)
        req.staging) (cfg.sha256 (contentOf req.source)) (contentOf req.source).length
        (env.clock .saveStaging)) ∧ env.fault .saveStaging = none)
    · apply (save_new_ends h _ _ rfl rfl (.inl rfl)).mono (fun _ _ hq => hq)
      rintro e t ⟨ht, hfault⟩
      exact .inr ⟨.inl (.inl ht), hunsaved _ (by decide) hfault⟩
    rintro _ _ ⟨rfl, hstaging⟩
    refine Exec.Ends.bind (save_next_ends h (w.write _ _) rfl .staging .quarantined rfl
      (by rfl) rfl (by rfl) (by decide) (.inl (by rfl)) |>.mono (fun _ _ hq => hq) ?_) ?_
    · rintro e t ⟨ht, hfault⟩
      exact .inr ⟨.inl (.inr ⟨_, rfl, by simp [UploadRequest.record], ht⟩),
        hunsaved _ (by decide) hfault⟩
    rintro _ _ ⟨rfl, hquarantined⟩
    refine Exec.Ends.bind (save_next_ends h (w.write _ _) rfl .quarantined .validating (by rfl)
      (by rfl) (by rfl) (by rfl) (by decide) (.inl (by rfl)) |>.mono (fun _ _ hq => hq) ?_) ?_
    · rintro e t ⟨ht, hfault⟩
      exact .inr ⟨.inl (.inr ⟨_, by rfl, by simp [ArtifactRecord.moveTo], ht⟩),
        hunsaved _ (by decide) hfault⟩
    rintro _ _ ⟨rfl, hvalidating⟩
    have hsaved : ¬ ∃ site ∈ [Site.saveStaging, .saveQuarantined, .saveValidating],
        env.fault site ≠ none := by
      simp [hstaging, hquarantined, hvalidating]
    refine ((uploadRecord_ends h (contentOf req.source) (by rfl) (by rfl) (by rfl) (by rfl)
      (by rfl)).mono ?_ fun _ _ he => he).handle ?_
    · rintro _ t ⟨hpublished, hsave⟩
      refine ⟨⟨type, rfl, hpublished⟩, fun hbad => ?_⟩
      rcases hstrands.mp hbad with hbad | ⟨_, hbad⟩
      · exact hsaved hbad
      · exact hbad hsave
    · rintro e t (⟨rfl, hnot⟩ | ⟨⟨q, hq, rfl⟩, hall, hsave⟩)
      · have hleft : ¬ env.Strands cfg req := by
          intro hbad
          rcases hstrands.mp hbad with hbad | ⟨hall, _⟩
          · exact hsaved hbad
          · exact hnot hall
        split
        all_goals
          refine (abandonUpload_ends h hclean (v := w) rfl (remove_staged h _) (by rfl) (by rfl)
            (by exact List.mem_of_getLast? rfl) (by simp [ArtifactRecord.failTo]) (by rfl) _).mono
              (fun _ _ hq => hq) ?_
          rintro e' t ⟨r, hid, _, ht⟩
          exact .inl ⟨.inr ⟨r, hid, ht⟩, hleft⟩
      · have hbad : env.Strands cfg req := hstrands.mpr (.inr ⟨hall, hsave⟩)
        split
        all_goals
          refine (abandonUpload_ends h hclean (v := w.write q _) rfl (remove_moved h _ hq) (by rfl)
            (by rfl) (by exact List.mem_of_getLast? rfl) (by simp [ArtifactRecord.failTo]) (by rfl)
            _).mono (fun _ _ hq => hq) ?_
          rintro e' t ⟨r, hid, hstatus, ht⟩
          exact .inr ⟨.inr ⟨type, rfl, q, r, hq, hid, hstatus, ht⟩, hbad⟩

end Upload

/-- The rows are those of `w` and some of the scope of the request. -/
def UploadRequest.Adds (req : UploadRequest) (w t : World) : Prop :=
  ∀ r ∈ t.records.rows, r ∈ w.records.rows ∨
    r.workspaceId = req.workspaceId ∧ r.projectId = req.projectId

/-- The upload gets as far as its first `save_artifact`. -/
def Env.StoresUpload (env : Env Site) (req : UploadRequest) : Prop :=
  env.fault .access = none ∧ req.localStore = true ∧ env.fault .saveStaging = none ∧
    ∃ type, req.type? = some type ∧ env.Stages (some type.maxBytes) req.source

section Rows

variable {cfg : StoreConfig} {env : Env Site} {w v : World} {req : UploadRequest}

theorem mem_put_or {r x : ArtifactRecord} (h : x ∈ (v.put r).records.rows) :
    x = r ∨ x ∈ v.records.rows := by
  by_cases hid : x.artifactId = r.artifactId
  · have hfound := Table.find?_of_mem h
    rw [hid, put_find?] at hfound
    exact .inl (Option.some.inj hfound).symm
  · exact .inr (mem_put h hid)

theorem saveArtifact_keeps {r : ArtifactRecord}
    (hr : r.workspaceId = req.workspaceId ∧ r.projectId = req.projectId) :
    (saveArtifact r).Keeps (req.Adds w) := by
  apply Exec.keeps_prim
  intro v hv
  have hput : req.Adds w (v.put r) := by
    intro x hx
    rcases mem_put_or hx with rfl | hx
    · exact .inr hr
    · exact hv x hx
  split <;> split_ifs <;> first | exact hv | exact hput

theorem save_keeps (site : Site) {r : ArtifactRecord}
    (hr : r.workspaceId = req.workspaceId ∧ r.projectId = req.projectId) :
    (save env site r).Keeps (req.Adds w) :=
  (saveArtifact_keeps hr).faulting _

theorem keeps_files {α : Type} {I : World → Prop} (hI : ∀ v t : World, t.records = v.records → I v → I t)
    {f : World → Except Exc α × World} (hf : ∀ v, (f v).2.records = v.records) :
    (Exec.prim f).Keeps I :=
  Exec.keeps_prim fun v hv => hI v _ (hf v) hv

theorem adds_of_records (v t : World) (h : t.records = v.records) (hv : req.Adds w v) :
    req.Adds w t := by
  unfold UploadRequest.Adds
  rwa [h]

theorem resolvePath_keeps (key : String) : (resolvePath cfg key).Keeps (req.Adds w) :=
  keeps_files adds_of_records fun _ => rfl

theorem finalize_keeps (stagingKey storageKey hash : String) :
    (finalize cfg env stagingKey storageKey hash).Keeps (req.Adds w) := by
  unfold finalize
  refine (resolvePath_keeps _).bind fun source => (resolvePath_keeps _).bind fun destination => ?_
  refine Exec.Keeps.bind (Exec.Keeps.faulting (keeps_files adds_of_records fun v => ?_) _) fun _ => ?_
  · split_ifs <;> rfl
  · refine Exec.Keeps.bind (Exec.Keeps.faulting (Exec.keeps_pure _) _) fun _ => ?_
    exact Exec.Keeps.faulting (keeps_files adds_of_records fun _ => rfl) _

theorem deleteStaging_keeps (key : String) :
    (deleteStaging cfg env key).Keeps (req.Adds w) := by
  refine Exec.Keeps.faulting ((resolvePath_keeps _).bind fun path => ?_) _
  exact keeps_files adds_of_records fun _ => rfl

theorem uploadRecord_keeps
    (hscope : validating.workspaceId = req.workspaceId ∧ validating.projectId = req.projectId)
    (storageKey : String) :
    (uploadRecord cfg env validating storageKey).Keeps (req.Adds w) := by
  unfold uploadRecord
  refine Exec.Keeps.bind (Exec.Keeps.faulting ?_ _) fun _ => ?_
  · refine Exec.Keeps.bind ?_ fun _ => Exec.keeps_pure _
    refine (resolvePath_keeps _).bind fun path => keeps_files adds_of_records fun v => ?_
    split_ifs <;> rfl
  · refine Exec.Keeps.bind (Exec.Keeps.faulting (Exec.keeps_pure _) _) fun _ => ?_
    refine (finalize_keeps _ _ _).bind fun _ => ?_
    refine (save_keeps _ (by exact hscope)).bind fun _ => ?_
    exact Exec.keeps_pure _

/-- Staging leaves the rows, and returns only if every call of it gets through. -/
theorem stage_records (artifactId : String) (staging : Uuid) (maxBytes : Option ℕ)
    (chunks : List Chunk) :
    (stage cfg env artifactId staging maxBytes chunks).Ends w
      (fun _ t => t.records = w.records ∧ env.Stages maxBytes chunks)
      fun _ t => t.records = w.records := by
  apply Exec.Ends.bind (Q := fun _ t => t = w)
  · apply (resolvePath_ends _).mono
    · rintro p t ⟨ht, _⟩
      exact ht
    · rintro e t ⟨rfl, _⟩
      rfl
  rintro destination t ht
  rw [ht]
  apply Exec.Ends.bind (Q := fun _ t => t.records = w.records ∧ env.Stages maxBytes chunks)
  · apply Exec.Ends.handle (R := fun _ t => t.records = w.records)
    · apply Exec.Ends.bind (Q := fun _ t => t = w.write destination [] ∧
        env.fault .openStaging = none)
      · apply Exec.ends_faulting
        · exact fun _ _ => rfl
        intro hopen
        cases hfile : w.files destination with
        | some b =>
          exact Exec.ends_of_error (e := .os) (t := w) (by simp [hfile]) rfl
        | none =>
          exact Exec.ends_of_ok (a := ()) (t := w.write destination []) (by simp [hfile])
            ⟨rfl, hopen⟩
      · rintro _ t ⟨rfl, hopen⟩
        apply (writeChunks_ends maxBytes chunks 0 []).mono
        · rintro content t ⟨_, rfl, hwrites⟩
          exact ⟨rfl, hopen, hwrites⟩
        · rintro e t ⟨⟨content, rfl⟩, _⟩
          rfl
    · intro e t ht
      apply Exec.Ends.bind (Q := fun _ u => u.records = w.records)
      · apply Exec.ends_faulting
        · exact fun _ _ => ht
        intro _
        exact Exec.ends_of_ok (a := ()) (t := t.remove destination) (by simp) ht
      · intro _ u hu
        exact Exec.ends_throw hu
  · rintro _ t ⟨ht, hstages⟩
    exact Exec.ends_pure ⟨ht, hstages⟩

/-- An upload leaves the rows, or adds rows of its scope after it was staged. -/
theorem uploadArtifact_records (cfg : StoreConfig) (env : Env Site) (req : UploadRequest)
    (w : World) :
    ((uploadArtifact cfg env req).runOn w).2.records = w.records ∨
      req.Adds w ((uploadArtifact cfg env req).runOn w).2 ∧ env.StoresUpload req := by
  have hends : (uploadArtifact cfg env req).Ends w
      (fun _ t => t.records = w.records ∨ req.Adds w t ∧ env.StoresUpload req)
      fun _ t => t.records = w.records ∨ req.Adds w t ∧ env.StoresUpload req := by
    apply Exec.Ends.bind (Q := fun _ t => t = w ∧ env.fault .access = none)
    · exact check_ends (fun _ _ => .inl rfl) fun haccess => ⟨rfl, haccess⟩
    rintro _ t ⟨ht, haccess⟩
    rw [ht]
    cases htype : req.type? with
    | none => exact Exec.ends_throw (.inl rfl)
    | some type =>
      dsimp only
      split_ifs with hlocal
      · apply Exec.Ends.bind (Q := fun _ t => t.records = w.records ∧
          env.Stages (some type.maxBytes) req.source)
        · apply (stage_records _ _ _ _).handle
          intro e t ht
          split <;> exact Exec.ends_throw (.inl ht)
        rintro ⟨stagingKey, digest, size⟩ t ⟨ht, hstages⟩
        dsimp only
        have hadds : req.Adds w t := adds_of_records w t ht fun r hr => .inl hr
        apply Exec.Ends.bind (Q := fun _ t => req.Adds w t ∧ env.StoresUpload req)
        · apply Exec.ends_faulting
          · exact fun _ _ => .inl ht
          intro hsave
          have hstores : env.StoresUpload req :=
            ⟨haccess, hlocal, hsave, type, htype, hstages⟩
          exact (saveArtifact_keeps (r := req.record type stagingKey digest size _) ⟨rfl, rfl⟩ t
            hadds).mono (fun _ _ hu => ⟨hu, hstores⟩) fun _ _ hu => .inr ⟨hu, hstores⟩
        rintro _ u ⟨hu, hstores⟩
        have hrest : ∀ {x : Exec Exc World ArtifactRecord}, x.Keeps (req.Adds w) → x.Ends u
            (fun _ t => t.records = w.records ∨ req.Adds w t ∧ env.StoresUpload req)
            fun _ t => t.records = w.records ∨ req.Adds w t ∧ env.StoresUpload req :=
          fun hx => (hx u hu).mono (fun _ _ ht => .inr ⟨ht, hstores⟩)
            fun _ _ ht => .inr ⟨ht, hstores⟩
        apply hrest
        refine (save_keeps _ (by exact ⟨rfl, rfl⟩)).bind fun _ => ?_
        refine (save_keeps _ (by exact ⟨rfl, rfl⟩)).bind fun _ => ?_
        refine (uploadRecord_keeps (by exact ⟨rfl, rfl⟩) _).handle fun e => ?_
        split
        all_goals
          refine (deleteStaging_keeps _).bind fun _ => ?_
          refine (save_keeps _ (by exact ⟨rfl, rfl⟩)).bind fun _ => ?_
          exact Exec.keeps_throw _
      · exact Exec.ends_throw (.inl rfl)
  rcases hends.final with ⟨_, h⟩ | ⟨_, h⟩ <;> exact h

end Rows

end CodeResearch.Artifacts
