import CodeResearch.Artifacts.Publish

/-!
# Where `_publish_file` leaves its blob and its record

A `uuid4` in its keys gives a publication two paths of its own: the staged file and
the published file never share one, and no other publication uses either. From a world to
which its identifiers are new, each call is computed, and every exit of the function is one
of a few worlds.
-/
namespace CodeResearch.Artifacts

/-- The identifiers of a publication are new to the world. -/
structure Fresh (cfg : StoreConfig) (w : World) (artifactId stagingKey storageKey : String) :
    Prop where
  record : w.records.find? artifactId = none
  keys : ∀ x ∈ w.records.rows, x.storageKey ≠ stagingKey ∧ x.storageKey ≠ storageKey
  staged : w.blobAt cfg stagingKey = none
  stored : w.blobAt cfg storageKey = none

section Keys

variable {cfg : StoreConfig}

theorem plain_of_artifactId (artifact : Uuid) {rest : List Char} (h : '/' ∉ rest) :
    Segment.Plain ((artifactId artifact).toList ++ rest) := by
  constructor
  · have hhex := artifact.separator
    simp [artifactId, String.toList_append, hhex, h]
  all_goals simp [artifactId, String.toList_append]

def stagingPath (cfg : StoreConfig) (artifact staging : Uuid) : Path :=
  cfg.root ++ [".staging".toList, (artifactId artifact).toList ++ '-' :: staging.hex.toList]

theorem resolve_stagingKey (artifact staging : Uuid) :
    cfg.resolve (stagingKey (artifactId artifact) staging) =
      .ok (stagingPath cfg artifact staging) := by
  have hplain : Segment.Plain ((artifactId artifact).toList ++ '-' :: staging.hex.toList) :=
    plain_of_artifactId artifact (by simp [staging.separator])
  have hdir : Segment.Plain ".staging".toList := by
    constructor <;> decide
  have hkey : (stagingKey (artifactId artifact) staging).toList =
      ".staging".toList ++ '/' :: ((artifactId artifact).toList ++ '-' :: staging.hex.toList) := by
    simp [stagingKey, String.toList_append]
  have hjoin : cfg.root.join (stagingKey (artifactId artifact) staging).toList =
      stagingPath cfg artifact staging := by
    rw [hkey, Path.join_append _ _ hplain, Path.join_plain hdir, stagingPath]
    simp
  rw [StoreConfig.resolve, hjoin, if_neg, if_pos]
  · exact List.prefix_append _ _
  · rintro (h | h)
    · rw [h] at hkey
      simp at hkey
    · rw [hkey] at h
      revert h
      simp

variable {artifact staging : Uuid} {directory suffix : String}

/-- The final path is not the path of the staged file. -/
theorem ne_stagingPath {q : Path}
    (hdotted : suffix.toList.head? = some '.') (hsep : '/' ∉ suffix.toList)
    (hq : cfg.resolve (directory ++ "/" ++ artifactId artifact ++ suffix) = .ok q) :
    q ≠ stagingPath cfg artifact staging := by
  have hkey : (directory ++ "/" ++ artifactId artifact ++ suffix).toList =
      directory.toList ++ '/' :: ((artifactId artifact).toList ++ suffix.toList) := by
    simp [String.toList_append]
  have hjoin : q = cfg.root.join directory.toList ++
      [(artifactId artifact).toList ++ suffix.toList] := by
    rw [StoreConfig.resolve, hkey, Path.join_append _ _ (plain_of_artifactId artifact hsep)] at hq
    split_ifs at hq
    exact (Except.ok.inj hq).symm
  have hsplit : stagingPath cfg artifact staging = (cfg.root ++ [".staging".toList]) ++
      [(artifactId artifact).toList ++ '-' :: staging.hex.toList] := by
    simp [stagingPath]
  rw [hjoin, hsplit]
  intro h
  have hlast := (List.append_inj' h rfl).2
  simp only [List.cons.injEq, List.append_cancel_left_eq, and_true] at hlast
  rw [hlast] at hdotted
  cases hdotted

/-- Where a publication is placed in a world to which its identifiers are new. -/
structure Placed (cfg : StoreConfig) (w : World) (id stagingKey storageKey : String)
    (source : Path) : Prop where
  staging : cfg.resolve stagingKey = .ok source
  record : w.records.find? id = none
  keys : ∀ x ∈ w.records.rows, x.storageKey ≠ stagingKey ∧ x.storageKey ≠ storageKey
  staged : w.files source = none
  stored : ∀ q, cfg.resolve storageKey = .ok q → q ≠ source ∧ w.files q = none

theorem Fresh.placed {w : World}
    (h : Fresh cfg w (artifactId artifact) (stagingKey (artifactId artifact) staging)
      (directory ++ "/" ++ artifactId artifact ++ suffix))
    (hdotted : suffix.toList.head? = some '.') (hsep : '/' ∉ suffix.toList) :
    Placed cfg w (artifactId artifact) (stagingKey (artifactId artifact) staging)
      (directory ++ "/" ++ artifactId artifact ++ suffix) (stagingPath cfg artifact staging) := by
  constructor
  · exact resolve_stagingKey artifact staging
  · exact h.record
  · exact h.keys
  · have hstaged := h.staged
    rwa [World.blobAt, resolve_stagingKey] at hstaged
  · intro q hq
    have hstored := h.stored
    rw [World.blobAt, hq] at hstored
    exact ⟨ne_stagingPath hdotted hsep hq, hstored⟩

end Keys

def contentOf (source : List Chunk) : Bytes := (source.map Subtype.val).flatten

/-- The loop of `stage` gets through, from its round `i` on. -/
def Env.Writes (env : Env Site) (maxBytes : Option ℕ) : ℕ → ℕ → List Chunk → Prop
  | i, _, [] => env.fault (.readChunk i) = none
  | i, size, chunk :: rest =>
    env.fault (.readChunk i) = none ∧ (∀ m ∈ maxBytes, size + chunk.1.length ≤ m) ∧
      env.fault (.writeChunk i) = none ∧ env.Writes maxBytes (i + 1) (size + chunk.1.length) rest

/-- `stage` gets through. -/
def Env.Stages (env : Env Site) (maxBytes : Option ℕ) (source : List Chunk) : Prop :=
  env.fault .openStaging = none ∧ env.Writes maxBytes 0 0 source

section Staging

variable {cfg : StoreConfig} {env : Env Site} {w : World} {source : Path}

theorem writeChunks_ends (maxBytes : Option ℕ) (chunks : List Chunk) :
    ∀ (i : ℕ) (written : Bytes),
      (writeChunks env source maxBytes i written chunks).Ends (w.write source written)
        (fun content t => content = written ++ contentOf chunks ∧ t = w.write source content ∧
          env.Writes maxBytes i written.length chunks)
        fun _ t => (∃ content, t = w.write source content) ∧
          ¬ env.Writes maxBytes i written.length chunks := by
  induction chunks with
  | nil =>
    intro i written
    apply (check_ends (Q := fun _ t => t = w.write source written ∧
      env.fault (.readChunk i) = none) ?_ ?_).bind
    · rintro _ t ⟨rfl, hread⟩
      exact Exec.ends_pure ⟨by simp [contentOf], rfl, hread⟩
    · intro e hfault
      refine ⟨⟨written, rfl⟩, ?_⟩
      intro hwrites
      rw [Env.Writes, hfault] at hwrites
      cases hwrites
    · intro hread
      exact ⟨rfl, hread⟩
  | cons chunk rest ih =>
    intro i written
    have hlen : (written ++ chunk.1).length = written.length + chunk.1.length :=
      List.length_append
    apply (check_ends (Q := fun _ t => t = w.write source written ∧
      env.fault (.readChunk i) = none) ?_ ?_).bind
    · rintro _ t ⟨rfl, hread⟩
      dsimp only
      split
      · rename_i hexceeds
        obtain ⟨m, hm, hlt⟩ := hexceeds
        apply Exec.ends_throw
        refine ⟨⟨written, rfl⟩, fun hwrites => ?_⟩
        have hle := hwrites.2.1 m hm
        omega
      · rename_i hfits
        have hfits : ∀ m ∈ maxBytes, written.length + chunk.1.length ≤ m := by
          intro m hm
          by_contra hlt
          exact hfits ⟨m, hm, by omega⟩
        apply Exec.Ends.bind (Q := fun _ t => t = w.write source (written ++ chunk.1) ∧
          env.fault (.writeChunk i) = none)
        · apply Exec.ends_faulting
          · intro e hfault
            refine ⟨⟨written, rfl⟩, fun hwrites => ?_⟩
            rw [hwrites.2.2.1] at hfault
            cases hfault
          · intro hwrite
            exact Exec.ends_of_ok (a := ()) (t := w.write source (written ++ chunk.1))
              (by simp [World.write]) ⟨rfl, hwrite⟩
        · rintro _ t ⟨rfl, hwrite⟩
          apply (ih (i + 1) (written ++ chunk.1)).mono
          · rintro content t ⟨rfl, ht, hrest⟩
            rw [hlen] at hrest
            exact ⟨by simp [contentOf], ht, hread, hfits, hwrite, hrest⟩
          · rintro e t ⟨ht, hrest⟩
            rw [hlen] at hrest
            exact ⟨ht, fun hwrites => hrest hwrites.2.2.2⟩
    · intro e hfault
      refine ⟨⟨written, rfl⟩, fun hwrites => ?_⟩
      rw [hwrites.1] at hfault
      cases hfault
    · intro hread
      exact ⟨rfl, hread⟩

theorem resolvePath_ends (key : String) :
    (resolvePath cfg key).Ends w (fun p t => t = w ∧ cfg.resolve key = .ok p)
      fun e t => t = w ∧ cfg.resolve key = .error e := by
  cases h : cfg.resolve key with
  | ok p => exact Exec.ends_of_ok (a := p) (t := w) (by rw [resolvePath, Exec.runOn_prim, h]) ⟨rfl, rfl⟩
  | error e =>
    exact Exec.ends_of_error (e := e) (t := w) (by rw [resolvePath, Exec.runOn_prim, h]) ⟨rfl, rfl⟩

/-- A file is staged completely, or leaves no trace once it is unlinked. -/
theorem stage_ends {artifact staging : Uuid} (maxBytes : Option ℕ) (chunks : List Chunk)
    (hfree : w.files (stagingPath cfg artifact staging) = none) :
    (stage cfg env (artifactId artifact) staging maxBytes chunks).Ends w
      (fun r t => r = (stagingKey (artifactId artifact) staging, cfg.sha256 (contentOf chunks),
          (contentOf chunks).length) ∧
        t = w.write (stagingPath cfg artifact staging) (contentOf chunks) ∧
        env.Stages maxBytes chunks)
      fun _ t => env.fault .unlinkStaging = none → t = w ∧ ¬ env.Stages maxBytes chunks := by
  apply Exec.Ends.bind (Q := fun p t => t = w ∧ p = stagingPath cfg artifact staging)
  · apply (resolvePath_ends _).mono
    · rintro p t ⟨ht, hp⟩
      rw [resolve_stagingKey] at hp
      exact ⟨ht, (Except.ok.inj hp).symm⟩
    · rintro e t ⟨_, he⟩
      rw [resolve_stagingKey] at he
      cases he
  rintro p t ⟨ht, hp⟩
  rw [ht, hp]
  apply Exec.Ends.bind (Q := fun content t => content = contentOf chunks ∧
    t = w.write (stagingPath cfg artifact staging) content ∧ env.Stages maxBytes chunks)
  · apply Exec.Ends.handle (R := fun _ t => (t = w ∨ ∃ content,
      t = w.write (stagingPath cfg artifact staging) content) ∧ ¬ env.Stages maxBytes chunks)
    · apply Exec.Ends.bind (Q := fun _ t => t = w.write (stagingPath cfg artifact staging) [] ∧
        env.fault .openStaging = none)
      · apply Exec.ends_faulting
        · intro e hfault
          refine ⟨.inl rfl, fun hstages => ?_⟩
          rw [hstages.1] at hfault
          cases hfault
        · intro hopen
          exact Exec.ends_of_ok (a := ()) (t := w.write (stagingPath cfg artifact staging) [])
            (by simp [hfree]) ⟨rfl, hopen⟩
      · rintro _ t ⟨rfl, hopen⟩
        apply (writeChunks_ends maxBytes chunks 0 []).mono
        · rintro content t ⟨rfl, ht, hwrites⟩
          exact ⟨by simp, ht, hopen, hwrites⟩
        · rintro e t ⟨ht, hwrites⟩
          exact ⟨.inr ht, fun hstages => hwrites hstages.2⟩
    · rintro e t ⟨ht, hstages⟩
      have hremove : t.remove (stagingPath cfg artifact staging) = w := by
        rcases ht with rfl | ⟨content, rfl⟩
        · simp only [World.remove, Files.remove_eq_self _ hfree]
        · simp only [World.write, World.remove, Files.remove_write _ _ hfree]
      apply Exec.Ends.bind (Q := fun _ u => u = w)
      · apply Exec.ends_faulting
        · intro e hfault hunlink
          rw [hunlink] at hfault
          cases hfault
        · intro _
          exact Exec.ends_of_ok (a := ()) (t := w) (by rw [Exec.runOn_prim, hremove]) rfl
      · rintro _ u rfl
        exact Exec.ends_throw fun _ => ⟨rfl, hstages⟩
  · rintro _ t ⟨rfl, ht, hstages⟩
    exact Exec.ends_pure ⟨rfl, ht, hstages⟩

end Staging

variable {persisted : Option ArtifactRecord}

section Records

variable {cfg : StoreConfig} {env : Env Site} {w v : World} {id key final : String} {source : Path}
  {r r' : ArtifactRecord}

theorem Placed.keyFree (h : Placed cfg w id key final source)
    (hkey : r.storageKey = key ∨ r.storageKey = final) : ¬ w.KeyTaken r := by
  rintro ⟨x, hx, _, htaken⟩
  rcases hkey with hkey | hkey
  · exact (h.keys x hx).1 (htaken.trans hkey)
  · exact (h.keys x hx).2 (htaken.trans hkey)

variable {site : Site}

/-- The first record is saved. -/
theorem save_new_ends (h : Placed cfg w id key final source) (p : Path) (content : Bytes)
    (hid : r.artifactId = id) (hstatus : r.status = .staging)
    (hkey : r.storageKey = key ∨ r.storageKey = final) :
    (save env site r).Ends (w.write p content)
      (fun _ t => t = (w.write p content).put r ∧ env.fault site = none)
      fun _ t => t = w.write p content ∧ env.fault site ≠ none := by
  apply Exec.ends_faulting
  · intro e hfault
    exact ⟨rfl, by simp [hfault]⟩
  · intro hfault
    have hfresh : (w.write p content).records.find? r.artifactId = none := by
      rw [hid]
      exact h.record
    exact Exec.ends_of_ok (saveArtifact_new hfresh hstatus (h.keyFree hkey)) ⟨rfl, hfault⟩

theorem save_next_ends (h : Placed cfg w id key final source) (v : World)
    (hv : v.records = w.records) (old new : ArtifactStatus) (hid : r.artifactId = id)
    (hid' : r'.artifactId = id) (hold : r.status = old) (hnew : r'.status = new)
    (hallowed : new ∈ artifactTransitions old)
    (hkey : r'.storageKey = key ∨ r'.storageKey = final) :
    (save env site r').Ends (v.put r) (fun _ t => t = v.put r' ∧ env.fault site = none)
      fun _ t => t = v.put r ∧ env.fault site ≠ none := by
  apply Exec.ends_faulting
  · intro e hfault
    exact ⟨rfl, by simp [hfault]⟩
  · intro hfault
    have hsame : r'.artifactId = r.artifactId := hid'.trans hid.symm
    have hfresh : v.records.find? r.artifactId = none := by rw [hv, hid, h.record]
    have hcurrent : (v.put r).records.find? r'.artifactId = some r := by
      rw [hsame]
      exact put_find? v r
    have hfree : ¬ (v.put r).KeyTaken r' := by
      intro htaken
      have htaken := keyTaken_put hsame htaken
      rw [World.KeyTaken, hv] at htaken
      exact h.keyFree hkey htaken
    have hstatus : r'.status ∈ artifactTransitions r.status := by rwa [hold, hnew]
    apply Exec.ends_of_ok (saveArtifact_next hcurrent hstatus hfree)
    exact ⟨put_put hfresh hsame, hfault⟩

/-- `finalize` gets through. -/
def Env.Finalizes (env : Env Site) (cfg : StoreConfig) (final : String) : Prop :=
  (∃ q, cfg.resolve final = .ok q) ∧ env.fault .hashStaging = none ∧
    env.fault .makeParent = none ∧ env.fault .replaceFile = none

/-- A staged file is moved to its final key, or stays where it is. -/
theorem finalize_ends (h : Placed cfg w id key final source) (content : Bytes) :
    (finalize cfg env key final (cfg.sha256 content)).Ends ((w.write source content).put r)
      (fun _ t => (∃ q, cfg.resolve final = .ok q ∧ t = (w.write q content).put r) ∧
        env.Finalizes cfg final)
      fun _ t => t = (w.write source content).put r ∧ ¬ env.Finalizes cfg final := by
  have hstaged : ((w.write source content).put r).files source = some content := by
    rw [put_files, World.write]
    exact Files.write_self _ _
  apply Exec.Ends.bind (Q := fun p t => t = (w.write source content).put r ∧ p = source)
  · apply (resolvePath_ends _).mono
    · rintro p t ⟨ht, hp⟩
      rw [h.staging] at hp
      exact ⟨ht, (Except.ok.inj hp).symm⟩
    · rintro e t ⟨_, he⟩
      rw [h.staging] at he
      cases he
  rintro p t ⟨ht, hp⟩
  rw [ht, hp]
  apply Exec.Ends.bind (Q := fun q t => t = (w.write source content).put r ∧
    cfg.resolve final = .ok q)
  · apply (resolvePath_ends _).mono (fun _ _ hq => hq)
    rintro e t ⟨ht, he⟩
    refine ⟨ht, ?_⟩
    rintro ⟨⟨q, hq⟩, _⟩
    rw [hq] at he
    cases he
  rintro q t ⟨ht, hq⟩
  rw [ht]
  apply Exec.Ends.bind (Q := fun _ t => t = (w.write source content).put r ∧
    env.fault .hashStaging = none)
  · apply Exec.ends_faulting
    · intro e hfault
      exact ⟨rfl, fun hfinal => by simp [hfinal.2.1] at hfault⟩
    · intro hhash
      exact Exec.ends_of_ok (a := ()) (t := (w.write source content).put r)
        (by simp [hstaged]) ⟨rfl, hhash⟩
  rintro _ _ ⟨rfl, hhash⟩
  apply Exec.Ends.bind (Q := fun _ t => t = (w.write source content).put r ∧
    env.fault .makeParent = none)
  · apply check_ends
    · intro e hfault
      exact ⟨rfl, fun hfinal => by simp [hfinal.2.2.1] at hfault⟩
    · intro hparent
      exact ⟨rfl, hparent⟩
  rintro _ _ ⟨rfl, hparent⟩
  apply Exec.ends_faulting
  · intro e hfault
    exact ⟨rfl, fun hfinal => by simp [hfinal.2.2.2] at hfault⟩
  · intro hreplace
    have hmoved : ((w.write source content).put r).rename source q = (w.write q content).put r := by
      simp only [World.rename, World.write, World.put, Files.rename_write _ _ h.staged]
    apply Exec.ends_of_ok (a := ()) (t := (w.write q content).put r)
    · rw [Exec.runOn_prim, hmoved]
    · exact ⟨⟨q, hq, rfl⟩, ⟨q, hq⟩, hhash, hparent, hreplace⟩

/-- The clean-up removes the staged file. -/
theorem deleteStaging_ends (h : Placed cfg w id key final source)
    (hdelete : env.fault .deleteStaging = none) {R : Exc → World → Prop} :
    (deleteStaging cfg env key).Ends v (fun _ t => t = v.remove source) R := by
  apply Exec.ends_faulting
  · intro e hfault
    rw [hdelete] at hfault
    cases hfault
  · intro _
    have hresolve : (resolvePath cfg key).runOn v = (.ok source, v) := by
      rw [resolvePath, Exec.runOn_prim, h.staging]
    apply Exec.ends_of_ok (a := ()) (t := v.remove source)
    · rw [deleteBlob, Exec.runOn_bind_ok hresolve]
      rfl
    · rfl

theorem remove_staged (h : Placed cfg w id key final source) (content : Bytes) :
    (w.write source content).remove source = w := by
  simp only [World.write, World.remove, Files.remove_write _ _ h.staged]

theorem remove_moved (h : Placed cfg w id key final source) (content : Bytes) {q : Path}
    (hq : cfg.resolve final = .ok q) : (w.write q content).remove source = w.write q content := by
  have hne := (h.stored q hq).1
  have hfree : (w.files.write q content) source = none := by
    rw [Files.write_of_ne _ _ hne.symm]
    exact h.staged
  simp only [World.write, World.remove, Files.remove_eq_self _ hfree]

theorem whilePersisted_ends {α : Type} {x : Exec Exc World α} {Q : α → World → Prop}
    {R : Exc × Option ArtifactRecord → World → Prop} (h : x.Ends v Q fun e t => R (e, persisted) t)
    : (whilePersisted persisted x).Ends v Q R :=
  h.handle fun _ _ he => Exec.ends_throw he

end Records

/-- The `try` block gets as far as its last `save_artifact`. -/
structure Env.Registers (env : Env Site) (cfg : StoreConfig) (final : String) : Prop where
  checkpointStaged : env.fault .checkpointStaged = none
  saveStaging : env.fault .saveStaging = none
  saveQuarantined : env.fault .saveQuarantined = none
  saveValidating : env.fault .saveValidating = none
  checkpointValidating : env.fault .checkpointValidating = none
  finalizes : env.Finalizes cfg final

structure Describes (cfg : StoreConfig) (id final : String) (content : Bytes) (r : ArtifactRecord) :
    Prop where
  artifactId : r.artifactId = id
  available : r.status = .available
  storageKey : r.storageKey = final
  contentHash : r.contentHash = cfg.sha256 content
  sizeBytes : r.sizeBytes = content.length

/-- The record and the blob of an artifact that was published. -/
def Published (cfg : StoreConfig) (w : World) (id final : String) (content : Bytes) (t : World) :
    Prop :=
  ∃ q r, cfg.resolve final = .ok q ∧ Describes cfg id final content r ∧
    t = (w.write q content).put r

def Leaked (cfg : StoreConfig) (w : World) (id final : String) (content : Bytes) (t : World) :
    Prop :=
  ∃ q r, cfg.resolve final = .ok q ∧ r.artifactId = id ∧ r.status ≠ .available ∧
    t = (w.write q content).put r

/-- No blob was left. -/
def Clean (w : World) (id : String) (t : World) : Prop :=
  t = w ∨ ∃ r, r.artifactId = id ∧ t = w.put r

section PublishFile

variable {cfg : StoreConfig} {env : Env Site} {w : World} {id key final : String} {source : Path}

/-- The value of `persisted` is the record that is stored. -/
def Persisted (id key : String) (v : World) (persisted : Option ArtifactRecord) (t : World) : Prop :=
  match persisted with
  | none => t = v
  | some r => r.artifactId = id ∧ r.storageKey = key ∧
      r.status ∈ [ArtifactStatus.staging, .quarantined, .validating] ∧ t = v.put r

/-- The `try` block publishes the record; what it raises before the last call leaves the
blob staged, what that call raises leaves it at its final key. -/
theorem publishRecord_ends (h : Placed cfg w id key final source) (content : Bytes)
    {record : ArtifactRecord} (hid : record.artifactId = id) (hstatus : record.status = .staging)
    (hkey : record.storageKey = key) (hhash : record.contentHash = cfg.sha256 content)
    (hsize : record.sizeBytes = content.length) :
    (publishRecord cfg env record final).Ends (w.write source content)
      (fun _ t => Published cfg w id final content t ∧
        env.Registers cfg final ∧ env.fault .saveAvailable = none)
      fun e t => (Persisted id key (w.write source content) e.2 t ∧ ¬ env.Registers cfg final) ∨
        (∃ q r, cfg.resolve final = .ok q ∧ e.2 = some r ∧
          Persisted id key (w.write q content) (some r) t) ∧
          env.Registers cfg final ∧ env.fault .saveAvailable ≠ none := by
  have hearly : ∀ {persisted : Option ArtifactRecord} {t : World} {e : Exc},
      Persisted id key (w.write source content) persisted t → ¬ env.Registers cfg final →
        (Persisted id key (w.write source content) (e, persisted).2 t ∧
          ¬ env.Registers cfg final) ∨
        (∃ q r, cfg.resolve final = .ok q ∧ (e, persisted).2 = some r ∧
          Persisted id key (w.write q content) (some r) t) ∧
          env.Registers cfg final ∧ env.fault .saveAvailable ≠ none :=
    fun hpersisted hnot => .inl ⟨hpersisted, hnot⟩
  apply Exec.Ends.bind (Q := fun _ t => t = (w.write source content).put record ∧
    env.fault .checkpointStaged = none ∧ env.fault .saveStaging = none)
  · apply whilePersisted_ends
    apply Exec.Ends.bind (Q := fun _ t => t = w.write source content ∧
      env.fault .checkpointStaged = none)
    · apply check_ends
      · intro e hfault
        exact hearly rfl fun hall => by simp [hall.checkpointStaged] at hfault
      · intro hcheck
        exact ⟨rfl, hcheck⟩
    · rintro _ _ ⟨rfl, hcheck⟩
      apply (save_new_ends h source content hid hstatus (.inl hkey)).mono
      · rintro _ t ⟨ht, hsave⟩
        exact ⟨ht, hcheck, hsave⟩
      · rintro e t ⟨ht, hsave⟩
        exact hearly ht fun hall => hsave hall.saveStaging
  rintro _ _ ⟨rfl, hcheck, hstaging⟩
  apply Exec.Ends.bind (Q := fun _ t => t = (w.write source content).put
    (record.moveTo .quarantined (env.clock .saveQuarantined)) ∧ env.fault .saveQuarantined = none)
  · apply whilePersisted_ends
    refine (save_next_ends h (w.write source content) rfl .staging .quarantined hid (by exact hid) hstatus
      (by rfl) (by decide) (.inl (by exact hkey))).mono (fun _ _ hq => hq) ?_
    rintro e t ⟨ht, hsave⟩
    exact hearly ⟨hid, hkey, by simp [hstatus], ht⟩ fun hall => hsave hall.saveQuarantined
  rintro _ _ ⟨rfl, hquarantined⟩
  apply Exec.Ends.bind (Q := fun _ t => t = (w.write source content).put
    ((record.moveTo .quarantined (env.clock .saveQuarantined)).moveTo .validating
      (env.clock .saveValidating)) ∧ env.fault .saveValidating = none)
  · apply whilePersisted_ends
    refine (save_next_ends h (w.write source content) rfl .quarantined .validating (by exact hid) (by exact hid)
      (by rfl) (by rfl) (by decide) (.inl (by exact hkey))).mono (fun _ _ hq => hq) ?_
    rintro e t ⟨ht, hsave⟩
    exact hearly ⟨hid, hkey, by simp [ArtifactRecord.moveTo], ht⟩ fun hall => hsave hall.saveValidating
  rintro _ _ ⟨rfl, hvalidating⟩
  apply whilePersisted_ends
  apply Exec.Ends.bind (Q := fun _ t => t = (w.write source content).put
    ((record.moveTo .quarantined (env.clock .saveQuarantined)).moveTo .validating
      (env.clock .saveValidating)) ∧ env.fault .checkpointValidating = none)
  · apply check_ends
    · intro e hfault
      exact hearly ⟨hid, hkey, by simp [ArtifactRecord.moveTo], rfl⟩ fun hall => by
        simp [hall.checkpointValidating] at hfault
    · intro hcheck
      exact ⟨rfl, hcheck⟩
  rintro _ _ ⟨rfl, hcheck'⟩
  apply Exec.Ends.bind (Q := fun _ t => (∃ q, cfg.resolve final = .ok q ∧
    t = (w.write q content).put ((record.moveTo .quarantined
      (env.clock .saveQuarantined)).moveTo .validating (env.clock .saveValidating))) ∧
      env.Finalizes cfg final)
  · rw [hkey, hhash]
    apply (finalize_ends h content).mono (fun _ _ hq => hq)
    rintro e t ⟨ht, hfinal⟩
    exact hearly ⟨hid, hkey, by simp [ArtifactRecord.moveTo], ht⟩ fun hall => hfinal hall.finalizes
  rintro _ _ ⟨⟨q, hq, rfl⟩, hfinal⟩
  have hall : env.Registers cfg final :=
    ⟨hcheck, hstaging, hquarantined, hvalidating, hcheck', hfinal⟩
  refine (save_next_ends h (w.write q content) rfl .validating .available (by exact hid) (by exact hid)
    (by rfl) (by rfl) (by decide) (.inr (by rfl))).mono ?_ ?_
  · rintro _ t ⟨rfl, hsave⟩
    refine ⟨⟨q, _, hq, ?_, rfl⟩, hall, hsave⟩
    exact ⟨hid, rfl, rfl, hhash, hsize⟩
  · rintro e t ⟨ht, hsave⟩
    exact .inr ⟨⟨q, _, hq, rfl, hid, hkey, by simp [ArtifactRecord.moveTo], ht⟩, hall, hsave⟩

/-- The clean-up calls of a publication are performed. -/
structure Env.CleansUp (env : Env Site) : Prop where
  unlinkStaging : env.fault .unlinkStaging = none
  deleteStaging : env.fault .deleteStaging = none
  saveAborted : env.fault .saveAborted = none

theorem orphaned_allowed {status : ArtifactStatus}
    (h : status ∈ [ArtifactStatus.staging, .quarantined, .validating]) :
    ArtifactStatus.orphaned ∈ artifactTransitions status ∧
      ArtifactStatus.rejected ∈ artifactTransitions status := by
  revert h
  cases status <;> decide

variable {R : Exc → World → Prop} {v : World}

/-- The record of an abandoned publication is closed. -/
theorem saveAborted_ends (h : Placed cfg w id key final source) (hclean : env.CleansUp)
    (hv : v.records = w.records) {r r' : ArtifactRecord} (hid : r.artifactId = id)
    (hid' : r'.artifactId = id)
    (hstatus : r.status ∈ [ArtifactStatus.staging, .quarantined, .validating])
    (hstatus' : r'.status ∈ [ArtifactStatus.orphaned, .rejected])
    (hkey : r'.storageKey = key) :
    (save env .saveAborted r').Ends (v.put r) (fun _ t => t = v.put r') R := by
  have hallowed : r'.status ∈ artifactTransitions r.status := by
    have hboth := orphaned_allowed hstatus
    simp only [List.mem_cons, List.not_mem_nil, or_false] at hstatus'
    rcases hstatus' with hnew | hnew <;> rw [hnew]
    · exact hboth.1
    · exact hboth.2
  apply (save_next_ends h v hv r.status r'.status hid hid' rfl rfl hallowed (.inl hkey)).mono
  · rintro _ t ⟨ht, _⟩
    exact ht
  · rintro e t ⟨_, hfault⟩
    exact absurd hclean.saveAborted hfault

/-- What the `except` clause of `_publish_file` leaves of a staged or a moved blob. -/
theorem abandonPublication_ends (h : Placed cfg w id key final source) (hclean : env.CleansUp)
    {u t : World} (hv : v.records = w.records) (hu : u.remove source = v)
    (hpersisted : Persisted id key u persisted t) :
    (abandonPublication cfg env key persisted).Ends t
      (fun _ t' => match persisted with
        | none => t' = v
        | some _ => ∃ r, r.artifactId = id ∧ r.status = .orphaned ∧ t' = v.put r) R := by
  cases persisted with
  | none =>
    cases hpersisted
    apply Exec.Ends.bind (Q := fun _ t => t = v)
    · apply (deleteStaging_ends h hclean.deleteStaging).mono
      · rintro _ t rfl
        exact hu
      · exact fun _ _ he => he
    · rintro _ t rfl
      exact Exec.ends_pure rfl
  | some r =>
    obtain ⟨hid, hkey, hstatus, rfl⟩ := hpersisted
    apply (deleteStaging_ends h hclean.deleteStaging).bind
    rintro _ t rfl
    have hremove : (u.put r).remove source = v.put r := by
      rw [← hu]
      rfl
    rw [hremove]
    dsimp only
    rw [if_pos hstatus]
    refine ((saveAborted_ends h hclean hv hid (by exact hid) hstatus (by exact List.mem_cons_self)
      (by exact hkey) (R := fun _ _ => False)).mono ?_ fun _ _ he => he).handle
        fun _ _ he => he.elim
    rintro _ t rfl
    exact ⟨_, by exact hid, rfl, rfl⟩

/-- `_publish_file` gets as far as its last `save_artifact`. -/
structure Env.Publishes (env : Env Site) (cfg : StoreConfig) (req : PublishRequest) : Prop where
  checkpointEntry : env.fault .checkpointEntry = none
  openSource : env.fault .openSource = none
  stages : env.Stages none req.source
  registers : env.Registers cfg req.storageKey

theorem PublishRequest.placed (req : PublishRequest)
    (h : Fresh cfg w (artifactId req.artifact) (stagingKey (artifactId req.artifact) req.staging)
      req.storageKey) :
    Placed cfg w (artifactId req.artifact) (stagingKey (artifactId req.artifact) req.staging)
      req.storageKey (stagingPath cfg req.artifact req.staging) := by
  have hkey : req.storageKey = (req.workspaceId ++ "/" ++
      (req.projectId.filter (· ≠ "")).getD "shared" ++ "/generated") ++ "/" ++
        artifactId req.artifact ++ req.suffix.text := by
    have hslash : "/generated/" = "/generated" ++ "/" := by decide
    rw [PublishRequest.storageKey, hslash]
    simp only [String.append_assoc]
  rw [hkey] at h ⊢
  exact h.placed req.suffix.dotted req.suffix.separator

/-- Every exit of `_publish_file` publishes the file or leaves no blob, unless its last
`save_artifact` raises. -/
theorem publishFile_ends (req : PublishRequest)
    (hfresh : Fresh cfg w (artifactId req.artifact)
      (stagingKey (artifactId req.artifact) req.staging) req.storageKey)
    (hclean : env.CleansUp) :
    (publishFile cfg env req).Ends w
      (fun _ t => Published cfg w (artifactId req.artifact) req.storageKey
        (contentOf req.source) t ∧ env.fault .saveAvailable = none)
      fun _ t => (Clean w (artifactId req.artifact) t ∧ ¬ env.Publishes cfg req) ∨
        Leaked cfg w (artifactId req.artifact) req.storageKey (contentOf req.source) t ∧
          env.Publishes cfg req ∧ env.fault .saveAvailable ≠ none := by
  have h := req.placed hfresh
  apply Exec.Ends.bind (Q := fun _ t => t = w ∧ env.fault .checkpointEntry = none)
  · apply check_ends
    · intro e hfault
      exact .inl ⟨.inl rfl, fun hall => by simp [hall.checkpointEntry] at hfault⟩
    · intro hcheck
      exact ⟨rfl, hcheck⟩
  rintro _ t ⟨ht, hentry⟩
  rw [ht]
  apply Exec.Ends.bind (Q := fun _ t => t = w ∧ env.fault .openSource = none)
  · apply check_ends
    · intro e hfault
      exact .inl ⟨.inl rfl, fun hall => by simp [hall.openSource] at hfault⟩
    · intro hopen
      exact ⟨rfl, hopen⟩
  rintro _ t ⟨ht, hopen⟩
  rw [ht]
  apply ((stage_ends none req.source h.staged).mono (fun _ _ hq => hq) ?_).bind
  · rintro _ t ⟨rfl, rfl, hstages⟩
    apply Exec.Ends.bind (Q := fun _ t => Published cfg w (artifactId req.artifact) req.storageKey
      (contentOf req.source) t ∧ env.fault .saveAvailable = none)
    · refine ((publishRecord_ends h (contentOf req.source) (by rfl) (by rfl) (by rfl) (by rfl)
        (by rfl)).mono ?_ fun _ _ he => he).handle ?_
      · rintro _ t ⟨hpublished, _, hsave⟩
        exact ⟨hpublished, hsave⟩
      · rintro ⟨e, persisted⟩ t (⟨hpersisted, hnot⟩ | ⟨⟨q, r, hq, rfl, hpersisted⟩, hall, hsave⟩)
        · apply (abandonPublication_ends h hclean (v := w) rfl (remove_staged h _) hpersisted).bind
          intro _ t' ht'
          apply Exec.ends_throw
          refine .inl ⟨?_, fun hpublishes => hnot hpublishes.registers⟩
          cases persisted with
          | none => exact .inl ht'
          | some _ =>
            obtain ⟨r, hid, _, ht'⟩ := ht'
            exact .inr ⟨r, hid, ht'⟩
        · apply (abandonPublication_ends h hclean (v := w.write q _) rfl (remove_moved h _ hq)
            hpersisted).bind
          rintro _ t' ⟨r', hid, hstatus, ht'⟩
          apply Exec.ends_throw
          refine .inr ⟨⟨q, r', hq, hid, ?_, ht'⟩, ⟨hentry, hopen, hstages, hall⟩, hsave⟩
          rw [hstatus]
          decide
    · rintro _ t hpublished
      exact Exec.ends_pure hpublished
  · intro e t hends
    obtain ⟨rfl, hstages⟩ := hends hclean.unlinkStaging
    exact .inl ⟨.inl rfl, fun hall => hstages hall.stages⟩

end PublishFile

end CodeResearch.Artifacts
