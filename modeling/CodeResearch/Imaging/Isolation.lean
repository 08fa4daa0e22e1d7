import CodeResearch.Imaging.Nodes

/-!
# Immutable assets and isolated tasks

An asset keeps the bytes it is named after, and a task changes no file of another task, as
long as a provider's image is not written over a hard link of an asset.
-/
namespace CodeResearch.Imaging

open LinkedFiles

variable {H : Type}

def NotLinked (files : LinkedFiles (FilePath H) Bytes) (task : Task) (diagramId : String) : Prop :=
  ∀ h i, files.inode (generatedRaw task diagramId) = some i → files.inode (.asset h) ≠ some i

/-- Assets hold what they are named after, the index leads to assets, and the only files that
share an inode are assets and the images linked to them. -/
structure Sound (tools : ImageTools H) (w : ImageWorld H) : Prop where
  addressed : ∀ h b, w.files.read (.asset h) = some b → tools.sha256 b = h
  indexed : ∀ key row, w.index key = some row →
    row.cachedAssetPath = .asset row.sha256 ∧ w.files.inode (.asset row.sha256) ≠ none
  shared : ∀ task parts q i, q ≠ .output task parts → w.files.inode (.output task parts) = some i →
    w.files.inode q = some i →
      (∃ d, parts = rawParts d) ∧ ∃ h, w.files.inode (.asset h) = some i

structure Isolates (tools : ImageTools H) (task : Task) (w w' : ImageWorld H) : Prop where
  sound : Sound tools w'
  others : ∀ other parts, other ≠ task →
    w'.files.read (.output other parts) = w.files.read (.output other parts)

variable {tools : ImageTools H} {task : Task} {diagramId : String} {parts : List String}
  {w w' w'' : ImageWorld H}

theorem Isolates.refl (h : Sound tools w) : Isolates tools task w w := ⟨h, fun _ _ _ => rfl⟩

theorem Isolates.trans (h : Isolates tools task w w') (h' : Isolates tools task w' w'') :
    Isolates tools task w w'' :=
  ⟨h'.sound, fun other ps hne => (h'.others other ps hne).trans (h.others other ps hne)⟩

theorem sound_start : Sound tools (DiagramState.start (H := H)).world where
  addressed _ _ h := nomatch h
  indexed _ _ h := nomatch h
  shared _ _ _ _ _ h := nomatch h

variable {files : LinkedFiles (FilePath H) Bytes}

namespace Sound

theorem unshared (h : Sound tools w) (hparts : ∀ d, parts ≠ rawParts d) :
    w.files.Unshared (.output task parts) := by
  intro q i hq hp hqi
  obtain ⟨⟨d, hd⟩, _⟩ := h.shared task parts q i hq hp hqi
  exact hparts d hd

theorem unshared_raw (h : Sound tools w) (hnot : NotLinked w.files task diagramId) :
    w.files.Unshared (generatedRaw task diagramId) := by
  intro q i hq hp hqi
  obtain ⟨_, a, ha⟩ := h.shared task (rawParts diagramId) q i hq hp hqi
  exact hnot a i hp ha

/-- The index takes a row for an asset that is there. -/
theorem insertRow (h : Sound tools w) (key : CacheKey) {row : CacheRow H}
    (hpath : row.cachedAssetPath = .asset row.sha256)
    (hexists : w.files.inode (.asset row.sha256) ≠ none) :
    Isolates tools task w { w with index := Function.update w.index key (some row) } where
  sound :=
    { addressed := h.addressed
      shared := h.shared
      indexed := fun k r hr => by
        by_cases hk : k = key
        · rw [hk] at hr
          cases (Function.update_self ..).symm.trans hr
          exact ⟨hpath, hexists⟩
        · exact h.indexed k r ((Function.update_of_ne hk ..).symm.trans hr) }
  others _ _ _ := rfl

/-- A task changes files of its own that have one name each afterwards. -/
theorem own (h : Sound tools w) (mine : FilePath H → Prop)
    (hmine : ∀ q, mine q → ∃ ps, q = .output task ps)
    (hread : ∀ q, ¬ mine q → files.read q = w.files.read q)
    (hinode : ∀ q, ¬ mine q → files.inode q = w.files.inode q)
    (hshared : ∀ q, mine q → files.Unshared q) : Isolates tools task w { w with files } := by
  have hasset : ∀ a, ¬ mine (.asset a) := fun a ha => nomatch hmine _ ha
  refine ⟨⟨fun a c hc => ?_, fun key row hrow => ?_, fun t ps q i hq ht hqi => ?_⟩,
    fun other ps hne => ?_⟩
  · exact h.addressed a c ((hread _ (hasset a)).symm.trans hc)
  · rw [hinode _ (hasset _)]
    exact h.indexed key row hrow
  · have hx : ¬ mine (.output t ps) := fun hm => hshared _ hm q i hq ht hqi
    have hy : ¬ mine q := fun hm => hshared _ hm _ i hq.symm hqi ht
    rw [hinode _ hx] at ht
    rw [hinode _ hy] at hqi
    obtain ⟨hraw, a, ha⟩ := h.shared t ps q i hq ht hqi
    exact ⟨hraw, a, (hinode _ (hasset a)).trans ha⟩
  · refine hread _ fun hm => ?_
    obtain ⟨_, heq⟩ := hmine _ hm
    exact hne (FilePath.output.inj heq).1

variable [DecidableEq H] {b : Bytes}

/-- A task writes a file of its own that has one name. -/
theorem write (h : Sound tools w) (hp : w.files.Unshared (.output task parts)) :
    Isolates tools task w { w with files := w.files.write (.output task parts) b } :=
  h.own (· = .output task parts) (fun _ hq => ⟨_, hq⟩) (fun _ => hp.read_write)
    (fun _ => inode_write_of_ne) (by rintro _ rfl; exact hp.write)

/-- A task removes a file of its own. -/
theorem unlink (h : Sound tools w) (task : Task) (parts : List String) :
    Isolates tools task w { w with files := w.files.unlink (.output task parts) } :=
  h.own (· = .output task parts) (fun _ hq => ⟨_, hq⟩) (fun _ => read_unlink_of_ne)
    (fun _ => inode_unlink_of_ne) (by rintro _ rfl; exact unshared_of_none inode_unlink_self)

/-- A task renames a file of its own that has one name. -/
theorem replace (h : Sound tools w) {source : List String} (hne : parts ≠ source)
    (hp : w.files.Unshared (.output task source)) :
    Isolates tools task w
      { w with files := w.files.replace (.output task source) (.output task parts) } := by
  apply h.own fun q => q = .output task source ∨ q = .output task parts
  · rintro _ (rfl | rfl) <;> exact ⟨_, rfl⟩
  · exact fun q hq => read_replace_of_ne (fun heq => hq (.inl heq)) fun heq => hq (.inr heq)
  · exact fun q hq => inode_replace_of_ne (fun heq => hq (.inl heq)) fun heq => hq (.inr heq)
  · rintro _ (rfl | rfl)
    · exact unshared_of_none inode_replace_source
    · intro q i hq ht hqi
      rw [inode_replace_target (by simpa using hne)] at ht
      by_cases hy : q = .output task source
      · rw [hy, inode_replace_source] at hqi
        cases hqi
      · rw [inode_replace_of_ne hy hq] at hqi
        exact hp q i hy ht hqi

theorem link (h : Sound tools w) (a : H) :
    Isolates tools task w
      { w with files := w.files.rebind (.asset a) (generatedRaw task diagramId) } where
  sound :=
    { addressed := fun a c hc => by
        rw [read_rebind_of_ne (by simp [generatedRaw])] at hc
        exact h.addressed a c hc
      indexed := fun key row hrow => by
        rw [inode_rebind_of_ne (by simp [generatedRaw])]
        exact h.indexed key row hrow
      shared := fun t ps q i hq ht hqi => by
        have hasset : ∀ c, (w.files.rebind (.asset a) (generatedRaw task diagramId)).inode
            (.asset c) = w.files.inode (.asset c) := fun c =>
          inode_rebind_of_ne (by simp [generatedRaw])
        by_cases hx : (FilePath.output t ps : FilePath H) = generatedRaw task diagramId
        · have hps : ps = rawParts diagramId := (FilePath.output.inj hx).2
          rw [hx, inode_rebind_self] at ht
          exact ⟨⟨diagramId, hps⟩, a, (hasset a).trans ht⟩
        · rw [inode_rebind_of_ne hx] at ht
          by_cases hy : q = generatedRaw task diagramId
          · rw [hy, inode_rebind_self] at hqi
            obtain ⟨hraw, _⟩ := h.shared t ps (.asset a) i (by simp) ht hqi
            exact ⟨hraw, a, (hasset a).trans hqi⟩
          · rw [inode_rebind_of_ne hy] at hqi
            obtain ⟨hraw, c, hc⟩ := h.shared t ps q i hq ht hqi
            exact ⟨hraw, c, (hasset c).trans hc⟩ }
  others other ps hne := read_rebind_of_ne (by simp [generatedRaw, hne])

/-- The cache writes an asset under the name of its bytes. Where the asset is there already,
it has these bytes. -/
theorem writeAsset (hsha : Function.Injective tools.sha256) (h : Sound tools w) :
    Isolates tools task w { w with files := w.files.write (.asset (tools.sha256 b)) b } := by
  have hread : ∀ q, q ≠ .asset (tools.sha256 b) →
      (w.files.write (.asset (tools.sha256 b)) b).read q = w.files.read q := by
    intro q hq
    cases hi : w.files.inode (.asset (tools.sha256 b)) with
    | none => exact (unshared_of_none hi).read_write hq
    | some i =>
      have hb := read_eq_some hi
      rw [hsha (h.addressed _ _ hb)] at hb
      exact read_write_same hb
  refine ⟨⟨fun a c hc => ?_, fun key row hrow => ?_, fun t ps q i hq ht hqi => ?_⟩,
    fun other ps _ => hread _ (by simp)⟩
  · by_cases ha : a = tools.sha256 b
    · rw [ha, read_write_self] at hc
      rw [ha, Option.some.inj hc]
    · rw [hread _ (by simpa using ha)] at hc
      exact h.addressed a c hc
  · obtain ⟨hpath, hexists⟩ := h.indexed key row hrow
    refine ⟨hpath, ?_⟩
    by_cases ha : row.sha256 = tools.sha256 b
    · rw [ha, inode_write_self]
      simp
    · rwa [inode_write_of_ne (by simpa using ha)]
  · rw [inode_write_of_ne (by simp)] at ht
    have hold : w.files.inode q = some i := by
      by_cases hy : q = .asset (tools.sha256 b)
      · rw [hy, inode_write_self] at hqi
        have he := inode_eq_of_target (ht.trans hqi.symm)
        rw [hy, he, ht]
      · rwa [inode_write_of_ne hy] at hqi
    obtain ⟨hraw, c, hc⟩ := h.shared t ps q i hq ht hold
    refine ⟨hraw, c, ?_⟩
    by_cases hy : c = tools.sha256 b
    · rw [hy] at hc
      rw [hy, inode_write_self, target_eq hc]
    · rw [inode_write_of_ne (by simpa using hy), hc]

end Sound

variable [DecidableEq H]

theorem cacheSet_isolates (hsha : Function.Injective tools.sha256) (h : Sound tools w)
    (enabled : Bool) (key : CacheKey) (imageBytes : Bytes) (metadata : ImageMetadata)
    (outcome : SetOutcome) :
    Isolates tools task w (cacheSet tools w enabled key imageBytes metadata outcome) := by
  unfold cacheSet
  cases outcome <;> dsimp only
  case failed => exact .refl h
  case assetOnly =>
    split
    · exact h.writeAsset hsha
    · exact .refl h
  case stored =>
    split
    · have hw : Isolates tools task w _ := h.writeAsset (b := imageBytes) hsha
      exact hw.trans (hw.sound.insertRow key rfl (by simp))
    · exact .refl h

section Linking

variable {P : Type*} [DecidableEq P] (files : LinkedFiles P Bytes) (source target : P)
  (outcome : LinkOutcome)

theorem relink_cases :
    (outcome.unlinks = false ∧ relink files source target outcome = (files, false)) ∨
      relink files source target outcome = (files.unlink target, false) ∨
      relink files source target outcome = ((files.unlink target).rebind source target, true) := by
  unfold relink
  by_cases hkept : files.inode target ≠ none ∧ outcome.unlinks = false
  · rw [if_pos hkept]
    exact .inl ⟨hkept.2, rfl⟩
  · rw [if_neg hkept]
    right
    dsimp only
    split
    · rename_i linked hl
      split at hl
      · rw [(hardlinkTo_eq_some hl).2.2]
        exact .inr rfl
      · cases hl
    · exact .inl rfl

/-- The ways out of `_copy_or_link`. -/
theorem copyOrLink_cases {result : LinkedFiles P Bytes × Bool}
    (h : copyOrLink files source target outcome = result) :
    (outcome.unlinks = false ∧
        (result = (files, false) ∨ ∃ b, result = (files.write target b, true))) ∨
      result = (files.unlink target, false) ∨
      result = ((files.unlink target).rebind source target, true) ∨
      ∃ b, result = ((files.unlink target).write target b, true) := by
  have hcopy : ∀ fs : LinkedFiles P Bytes, relink files source target outcome = (fs, false) →
      result = (fs, false) ∨ ∃ b, result = (fs.write target b, true) := by
    intro fs hfs
    simp only [copyOrLink, hfs] at h
    subst h
    split
    · rename_i copied hc
      split at hc
      · obtain ⟨b, _, _, rfl⟩ := copyfile_eq_some hc
        exact .inr ⟨b, rfl⟩
      · cases hc
    · exact .inl rfl
  obtain ⟨hkept, hl⟩ | hl | hl := relink_cases files source target outcome
  · exact .inl ⟨hkept, hcopy _ hl⟩
  · obtain hc | hc := hcopy _ hl
    · exact .inr (.inl hc)
    · exact .inr (.inr (.inr hc))
  · rw [copyOrLink, hl] at h
    exact .inr (.inr (.inl h.symm))

end Linking

/-- What a hit leaves behind, and that a failed one leaves the image as private as it was. -/
theorem copyOrLink_isolates (h : Sound tools w) (a : H) (outcome : LinkOutcome)
    (hcare : NotLinked w.files task diagramId ∨ outcome.unlinks = true) {returned : Bool}
    (hr : copyOrLink w.files (.asset a) (generatedRaw task diagramId) outcome = (files, returned)) :
    Isolates tools task w { w with files } ∧
      (returned = false → NotLinked w.files task diagramId → NotLinked files task diagramId) := by
  have hcleared := h.unlink task (rawParts diagramId)
  obtain ⟨hkept, hr | ⟨b, hr⟩⟩ | hr | hr | ⟨b, hr⟩ := copyOrLink_cases _ _ _ _ hr <;> cases hr
  · exact ⟨.refl h, fun _ hnot => hnot⟩
  · have hnot := hcare.resolve_right (by simp [hkept])
    exact ⟨h.write (h.unshared_raw hnot), by simp⟩
  · exact ⟨hcleared, fun _ _ c i hi => by cases inode_unlink_self.symm.trans hi⟩
  · exact ⟨hcleared.trans (hcleared.sound.link a), by simp⟩
  · exact ⟨hcleared.trans (hcleared.sound.write (unshared_of_none inode_unlink_self)), by simp⟩

def KeepsPrivate (task : Task) (diagramId : String) (w w' : ImageWorld H) : Prop :=
  NotLinked w.files task diagramId → NotLinked w'.files task diagramId

def Attempt.IsDelivered : Attempt → Prop
  | .delivered .. => True
  | _ => False

/-- No provider delivers an image, and an image that is there can be removed. -/
structure ProviderTurn.Quiet (turn : ProviderTurn) : Prop where
  unlinks : turn.link.unlinks = true
  attempts : ∀ attempt ∈ turn.attempts, ¬ attempt.IsDelivered

variable {request : GenerationRequest} {s : DiagramState H}

theorem fromCache_isolates (h : Sound tools w) (turn : ProviderTurn) (width height : ℕ)
    (hcare : NotLinked w.files request.task request.diagramId ∨ turn.link.unlinks = true) :
    Isolates tools request.task w (fromCache tools w request turn width height).1 ∧
      ((fromCache tools w request turn width height).2.image = none →
        KeepsPrivate request.task request.diagramId w
          (fromCache tools w request turn width height).1) := by
  unfold fromCache
  dsimp only
  split
  · exact ⟨.refl h, fun _ hnot => hnot⟩
  split
  · exact ⟨.refl h, fun _ hnot => hnot⟩
  rename_i row hrow
  split
  · exact ⟨.refl h, fun _ hnot => hnot⟩
  have hpath : row.cachedAssetPath = .asset row.sha256 := by
    unfold cacheGet at hrow
    split at hrow
    · exact (h.indexed _ _ hrow).1
    · cases hrow
  rw [hpath]
  split <;> rename_i files hr <;> obtain ⟨hiso, hkeep⟩ := copyOrLink_isolates h _ _ hcare hr
  · exact ⟨hiso, fun _ => hkeep rfl⟩
  · exact ⟨hiso, fun hnone => nomatch hnone⟩

theorem takeDelivery_isolates (hsha : Function.Injective tools.sha256) (h : Sound tools w)
    (hnot : NotLinked w.files request.task request.diagramId) (turn : ProviderTurn)
    (width height : ℕ) (imageBytes : Bytes) (mimeType : String) (latencyMs : ℕ)
    (caching : SetOutcome) :
    let taken := takeDelivery tools w request turn width height imageBytes mimeType latencyMs caching
    Isolates tools request.task w taken.1 ∧
      (taken.2 = none → NotLinked taken.1.files request.task request.diagramId) := by
  dsimp only
  unfold takeDelivery
  have hwrite := fun png => h.write (b := png) (h.unshared_raw hnot)
  obtain hw | ⟨png, hw⟩ | ⟨png, info, hw⟩ := writeValidatedImage_files tools.decoder
    { maxBytes := request.maxOutputBytes
      maxWidth := max request.settings.maxWidth (max width request.width)
      maxHeight := max request.settings.maxHeight (max height request.height) }
    w.files request.outputPath imageBytes mimeType <;> rw [hw] <;> dsimp only
  · exact ⟨.refl h, fun _ => hnot⟩
  · refine ⟨(hwrite png).trans ((hwrite png).sound.unlink _ _), fun _ c i hi => ?_⟩
    cases inode_unlink_self.symm.trans hi
  · refine ⟨(hwrite png).trans ?_, fun hnone => nomatch hnone⟩
    split
    · exact .refl (hwrite png).sound
    · exact cacheSet_isolates hsha (hwrite png).sound _ _ _ _ _

/-- The attempts at a provider, by recursion over them. -/
theorem tryProvider_isolates (hsha : Function.Injective tools.sha256) (turn : ProviderTurn)
    (width height : ℕ) (attempts : List Attempt) :
    ∀ (w : ImageWorld H) (warnings : List Warning), Sound tools w →
      (NotLinked w.files request.task request.diagramId ∨ ∀ a ∈ attempts, ¬ a.IsDelivered) →
      let tried := tryProvider tools request turn width height attempts w warnings
      Isolates tools request.task w tried.2.1 ∧
        (tried.1 = false → KeepsPrivate request.task request.diagramId w tried.2.1) := by
  induction attempts with
  | nil => exact fun w _ h _ => ⟨.refl h, fun _ hnot => hnot⟩
  | cons attempt rest ih =>
    intro w warnings h hcare
    have hrest : NotLinked w.files request.task request.diagramId ∨ ∀ a ∈ rest, ¬ a.IsDelivered :=
      hcare.imp_right fun hq a ha => hq a (List.mem_cons_of_mem _ ha)
    cases attempt with
    | overBudget => exact ⟨.refl h, fun hf => nomatch hf⟩
    | failed code recoverable =>
      unfold tryProvider
      dsimp only
      split
      · exact ih w _ h hrest
      · exact ⟨.refl h, fun _ hnot => hnot⟩
    | raised => exact ih w _ h hrest
    | delivered imageBytes mimeType latencyMs caching =>
      have hnot := hcare.resolve_right fun hq => hq _ List.mem_cons_self trivial
      obtain ⟨htaken, hprivate⟩ := takeDelivery_isolates hsha h hnot turn width height
        imageBytes mimeType latencyMs caching
      unfold tryProvider
      dsimp only
      split <;> rename_i w' hw <;> rw [hw] at htaken hprivate
      · exact ⟨htaken, fun hf => nomatch hf⟩
      · have hnot' := hprivate rfl
        obtain ⟨hlater, hkeep⟩ := ih w' (warnings ++ [_]) htaken.sound (.inl hnot')
        exact ⟨htaken.trans hlater, fun hf _ => hkeep hf hnot'⟩

/-- The providers, by recursion over them. -/
theorem tryProviders_isolates (request : GenerationRequest)
    (hsha : Function.Injective tools.sha256) (turns : List ProviderTurn) :
    ∀ (w : ImageWorld H) (warnings : List Warning), Sound tools w →
      (NotLinked w.files request.task request.diagramId ∨ ∀ turn ∈ turns, turn.Quiet) →
      Isolates tools request.task w (tryProviders tools request turns w warnings).1 := by
  induction turns with
  | nil => exact fun w _ h _ => .refl h
  | cons turn rest ih =>
    intro w warnings h hcare
    have hrest : NotLinked w.files request.task request.diagramId ∨ ∀ turn ∈ rest, turn.Quiet :=
      hcare.imp_right fun hq t ht => hq t (List.mem_cons_of_mem _ ht)
    have hquiet : NotLinked w.files request.task request.diagramId ∨ turn.Quiet :=
      hcare.imp_right fun hq => hq _ List.mem_cons_self
    unfold tryProviders
    split
    · exact ih w _ h hrest
    rename_i width height _
    obtain ⟨hhit, hkeep⟩ := fromCache_isolates h turn width height
      (hquiet.imp_right ProviderTurn.Quiet.unlinks)
    split <;> rename_i w' _ hw <;> rw [hw] at hhit hkeep
    · exact hhit
    have hkept := hkeep rfl
    obtain ⟨htried, hkeep'⟩ := tryProvider_isolates hsha turn width height turn.attempts
      w' (warnings ++ _) hhit.sound
      ((hquiet.imp_left hkept).imp_right ProviderTurn.Quiet.attempts)
    split <;> rename_i w'' result ht <;> rw [ht] at htried hkeep'
    · exact hhit.trans htried
    · have hlater := ih w'' result.warnings htried.sound
        (hrest.imp_left fun hnot => hkeep' rfl (hkept hnot))
      exact (hhit.trans htried).trans hlater

theorem generateImage_isolates (hsha : Function.Injective tools.sha256) (h : Sound tools w)
    (providerNames : Option (List String)) {turns : List ProviderTurn}
    (hcare : NotLinked w.files request.task request.diagramId ∨ ∀ turn ∈ turns, turn.Quiet) :
    Isolates tools request.task w (generateImage tools request providerNames turns w).1 := by
  have hiso := tryProviders_isolates request hsha
    (turns.filter fun turn => turn.configured && providerNames.all (turn.name ∈ ·)) w [] h
    (hcare.imp_right fun hq turn ht => hq turn (List.mem_of_mem_filter ht))
  unfold generateImage
  dsimp only
  split <;> exact hiso

theorem styled_ne_raw (d : String) :
    ["teaching_diagrams", "ai", diagramId, "styled_composite.png"] ≠ rawParts d := by
  simp [rawParts]

theorem final_ne_raw (d : String) :
    ["teaching_diagrams", "ai", diagramId, "final.png"] ≠ rawParts d := by
  simp [rawParts]

theorem compose_isolates (h : Sound tools w) (request : GenerationRequest)
    (generated : Option (FilePath H)) (render : Option Bytes) :
    Isolates tools request.task w (compose tools w request generated render).1 := by
  unfold compose
  split
  · exact .refl h
  dsimp only
  split
  · have hstyled : w.files.Unshared (styledComposite request.task request.diagramId) :=
      h.unshared styled_ne_raw
    have hw := fun page => h.write (b := page) hstyled
    split <;> exact hw _
  · exact .refl h

theorem writeBlueprint_isolates (h : Sound tools w) (input : GenerateInput) :
    Isolates tools input.request.task w (writeBlueprint w input) := by
  have hunshared : ∀ {v : ImageWorld H}, Sound tools v → ∀ directory name,
      v.files.Unshared (.output input.request.task ["teaching_diagrams", directory, name]) :=
    fun hv directory name => hv.unshared fun d => by simp [rawParts]
  have hspec := h.write (b := input.specJson) (hunshared h "specs" (input.request.diagramId ++ ".json"))
  have hsvg := hspec.sound.write (b := input.blueprintSvg)
    (hunshared hspec.sound "blueprint_svg" (input.request.diagramId ++ ".svg"))
  have hpng := hsvg.sound.write (b := input.blueprintPng)
    (hunshared hsvg.sound "blueprint_png" (input.request.diagramId ++ ".png"))
  exact (hspec.trans hsvg).trans hpng

theorem writeBlueprint_notLinked {input : GenerateInput}
    (h : NotLinked w.files task diagramId) :
    NotLinked (writeBlueprint w input).files task diagramId := by
  intro a i hi
  have hsame : ∀ p : FilePath H, (∀ t name, p ≠ .output t ["teaching_diagrams", "specs", name]) →
      (∀ t name, p ≠ .output t ["teaching_diagrams", "blueprint_svg", name]) →
      (∀ t name, p ≠ .output t ["teaching_diagrams", "blueprint_png", name]) →
      (writeBlueprint w input).files.inode p = w.files.inode p := by
    intro p h1 h2 h3
    unfold writeBlueprint
    dsimp only
    rw [inode_write_of_ne (h3 _ _), inode_write_of_ne (h2 _ _), inode_write_of_ne (h1 _ _)]
  rw [hsame _ (by simp [generatedRaw, rawParts]) (by simp [generatedRaw, rawParts])
    (by simp [generatedRaw, rawParts])] at hi
  rw [hsame _ (by simp) (by simp) (by simp)]
  exact h a i hi

theorem generateDiagram_isolates (hsha : Function.Injective tools.sha256) (h : Sound tools s.world)
    (input : GenerateInput)
    (hcare : NotLinked s.world.files input.request.task input.request.diagramId ∨
      ∀ turn ∈ input.turns, turn.Quiet) :
    Isolates tools input.request.task s.world (generateDiagram tools s input).world := by
  have hdrawn := writeBlueprint_isolates h input
  have hrequested : Isolates tools input.request.task s.world
      (requestImage tools input (writeBlueprint s.world input)).1 := by
    unfold requestImage
    split
    · exact hdrawn.trans (generateImage_isolates hsha hdrawn.sound none
        (hcare.imp_left writeBlueprint_notLinked))
    · exact hdrawn
  exact hrequested.trans (compose_isolates hrequested.sound _ _ _)

theorem acceptAi_isolates (h : Sound tools w) {item item' : DiagramItem H}
    (ha : acceptAi tools w request item = some (w', item')) :
    Isolates tools request.task w w' := by
  unfold acceptAi at ha
  split at ha
  · cases ha
    exact .refl h
  · obtain ⟨files, hfiles, ha⟩ := Option.map_eq_some_iff.mp ha
    cases ha
    obtain ⟨b, _, _, rfl⟩ := copyfile_eq_some hfiles
    exact h.write (h.unshared final_ne_raw)

theorem regenerateWithSeedream_isolates (hsha : Function.Injective tools.sha256)
    (h : Sound tools w) (input : ReviewInput) (item : DiagramItem H)
    (hcare : NotLinked w.files input.request.task input.request.diagramId ∨
      ∀ turn ∈ input.turns, turn.Quiet) :
    Isolates tools input.request.task w (regenerateWithSeedream tools w input item).1 := by
  have hgenerated := generateImage_isolates hsha h (some ["seedream"]) hcare
  unfold regenerateWithSeedream
  dsimp only
  split
  · exact hgenerated
  · rename_i image _
    have hcomposed := hgenerated.trans (compose_isolates hgenerated.sound input.request
      (some image.imagePath) input.render)
    split <;> rename_i hc <;> rw [hc] at hcomposed <;> exact hcomposed

theorem reviewItem_isolates (hsha : Function.Injective tools.sha256) (h : Sound tools w)
    (input : ReviewInput) (item : DiagramItem H)
    (hcare : NotLinked w.files input.request.task input.request.diagramId ∨
      ∀ turn ∈ input.turns, turn.Quiet) :
    Isolates tools input.request.task w (reviewItem tools w input item).1 := by
  have hregenerated := regenerateWithSeedream_isolates hsha h input item hcare
  unfold reviewItem
  split
  · exact .refl h
  split_ifs
  · exact .refl h
  · split
    · exact .refl h
    · rename_i w' item' ha
      exact acceptAi_isolates h ha
  · split <;> rename_i hr <;> rw [hr] at hregenerated
    · exact hregenerated
    split_ifs
    · split
      · exact hregenerated
      · rename_i w'' item'' ha
        exact hregenerated.trans (acceptAi_isolates hregenerated.sound ha)
    · exact hregenerated
  · exact .refl h

theorem reviewDiagram_isolates (hsha : Function.Injective tools.sha256) (h : Sound tools s.world)
    (input : ReviewInput)
    (hcare : NotLinked s.world.files input.request.task input.request.diagramId ∨
      ∀ turn ∈ input.turns, turn.Quiet) :
    Isolates tools input.request.task s.world (reviewDiagram tools s input).world := by
  unfold reviewDiagram
  dsimp only
  split
  · exact .refl h
  · rename_i item _
    have hreview := reviewItem_isolates hsha h input item hcare
    split <;> rename_i hr <;> rw [hr] at hreview <;> exact hreview

theorem writeManifest_isolates (h : Sound tools s.world) (text : Bytes) :
    Isolates tools task s.world (writeManifest s task text).world := by
  have htemporary : s.world.files.Unshared
      (.output task ["teaching_diagrams", "manifest.json.tmp"]) :=
    h.unshared fun d => by simp [rawParts]
  have hwrite := h.write (b := text) htemporary
  exact hwrite.trans (hwrite.sound.replace (by simp) htemporary.write)

/-- A step in which a provider may deliver an image, or the old image may not be removable,
starts with an image that is not a hard link of a cached asset. -/
def Spares (s : DiagramState H) : DiagramStep → Prop
  | .generate input => NotLinked s.world.files input.request.task input.request.diagramId ∨
      ∀ turn ∈ input.turns, turn.Quiet
  | .review input => NotLinked s.world.files input.request.task input.request.diagramId ∨
      ∀ turn ∈ input.turns, turn.Quiet
  | .manifest _ _ => True

theorem step_isolates (hsha : Function.Injective tools.sha256) {s s' : DiagramState H}
    {step : DiagramStep} (h : Sound tools s.world) (hspares : Spares s step)
    (hstep : (diagrams tools).step s step = some s') :
    Isolates tools step.task s.world s'.world := by
  cases step <;> cases hstep
  case generate input => exact generateDiagram_isolates hsha h input hspares
  case review input => exact reviewDiagram_isolates hsha h input hspares
  case manifest task text => exact writeManifest_isolates h text

theorem sound_run (hsha : Function.Injective tools.sha256) {steps : List DiagramStep}
    (h : (diagrams tools).Run Spares .start steps s) :
    Sound tools s.world :=
  h.invariant (fun s => Sound tools s.world)
    (fun _ _ _ hs hspares hstep => (step_isolates hsha hs hspares hstep).sound) sound_start

/-- An asset that the index leads to holds the bytes of its hash, and a step changes no file of
another task. -/
theorem cached_images_immutable (hsha : Function.Injective tools.sha256) {s : DiagramState H}
    {steps : List DiagramStep} (h : (diagrams tools).Run Spares .start steps s) :
    (∀ key row, s.world.index key = some row →
      ∃ data, s.world.files.read row.cachedAssetPath = some data ∧ tools.sha256 data = row.sha256) ∧
    ∀ step s', Spares s step → (diagrams tools).step s step = some s' →
      ∀ other parts, other ≠ step.task →
        s'.world.files.read (.output other parts) = s.world.files.read (.output other parts) := by
  have hsound := sound_run hsha h
  refine ⟨fun key row hrow => ?_, fun step s' hspares hstep =>
    (step_isolates hsha hsound hspares hstep).others⟩
  obtain ⟨hpath, hexists⟩ := hsound.indexed key row hrow
  obtain ⟨i, hi⟩ := Option.ne_none_iff_exists'.mp hexists
  have hread := read_eq_some hi
  exact ⟨_, hpath ▸ hread, hsound.addressed _ _ hread⟩

section Example

def exampleTools : ImageTools Bytes where
  decoder :=
    { size := fun _ => some (1280, 720)
      firstPage := fun _ data => some { width := 1280, height := 720, png := data } }
  sha256 := id

def examplePng (pixel : UInt8) : Bytes :=
  [0x89, 0x50, 0x4e, 0x47, 0x0d, 0x0a, 0x1a, 0x0a, pixel]

def exampleRequest (task : Task) : GenerationRequest where
  diagramId := "diagram"
  publicSpecHash := "spec"
  promptVersion := "1.3.3"
  schemaVersion := "1.3.3"
  width := 1280
  height := 720
  maxOutputBytes := 1024
  task := task
  settings :=
    { cacheEnabled := true, maxWidth := 1536, maxHeight := 1536, maxSingleImageBytes := 1024 }

def exampleTurn (name : String) (attempts : List Attempt) : ProviderTurn where
  name := name
  model := "model"
  configured := true
  requestSize := .unsupported
  cacheReadFails := false
  link := { unlinks := true, links := true, copies := true }
  attempts := attempts

def exampleGenerate (task : Task) (attempts : List Attempt) : DiagramStep :=
  .generate
    { request := exampleRequest task
      specJson := []
      blueprintSvg := []
      blueprintPng := []
      imagesEnabled := true
      turns := [exampleTurn "qwen_image" attempts]
      render := some (examplePng 0) }

def exampleRegenerate (task : Task) : DiagramStep :=
  .review
    { request := exampleRequest task
      gate := .opened
      firstReview := some false
      hasImageRuntime := true
      turns := [exampleTurn "seedream" [.delivered (examplePng 2) "image/png" 5 .stored]]
      render := some (examplePng 0)
      secondReview := none }

/-- One task has an image generated and a second one is answered from the cache. -/
theorem cached_images_immutable_hit : ∃ s,
    (diagrams exampleTools).Run Spares .start
      [exampleGenerate "first" [.delivered (examplePng 1) "image/png" 5 .stored],
        exampleGenerate "second" []] s ∧
    (∀ key row, s.world.index key = some row →
      ∃ data, s.world.files.read row.cachedAssetPath = some data ∧
        exampleTools.sha256 data = row.sha256) ∧
    ∀ step s', Spares s step → (diagrams exampleTools).step s step = some s' →
      ∀ other parts, other ≠ step.task →
        s'.world.files.read (.output other parts) = s.world.files.read (.output other parts) := by
  have hfirst : Spares (DiagramState.start (H := Bytes))
      (exampleGenerate "first" [.delivered (examplePng 1) "image/png" 5 .stored]) :=
    .inl fun _ _ hi => nomatch hi
  have hquiet : ∀ turn ∈ [exampleTurn "qwen_image" []], turn.Quiet := by
    simp only [List.mem_singleton, forall_eq]
    exact ⟨rfl, fun _ ha => nomatch ha⟩
  have hrun := Machine.Run.cons (M := diagrams exampleTools) hfirst rfl
    (.cons (a := exampleGenerate "second" []) (Or.inr hquiet) rfl (.nil _))
  exact ⟨_, hrun, cached_images_immutable Function.injective_id hrun⟩

/-- The image of a task is a hard link of the asset. Its regeneration is written over the asset
and over the image of a third task. -/
theorem regeneration_overwrites_asset : ∃ s s',
    (diagrams exampleTools).Run Machine.Free .start
      [exampleGenerate "first" [.delivered (examplePng 1) "image/png" 5 .stored],
        exampleGenerate "second" [], exampleGenerate "third" []] s ∧
    (diagrams exampleTools).step s (exampleRegenerate "second") = some s' ∧
    (∃ row, s'.world.index (cacheKey (exampleRequest "first") (exampleTurn "qwen_image" []) 1280 720) =
        some row ∧
      row.sha256 = exampleTools.sha256 (examplePng 1) ∧
      s'.world.files.read row.cachedAssetPath = some (examplePng 2)) ∧
    s.world.files.read (generatedRaw "third" "diagram") = some (examplePng 1) ∧
    s'.world.files.read (generatedRaw "third" "diagram") = some (examplePng 2) := by
  refine ⟨_, _, .cons trivial rfl (.cons trivial rfl (.cons trivial rfl (.nil _))), rfl,
    ⟨_, rfl, rfl, ?_⟩, ?_, ?_⟩
  all_goals rfl

end Example

end CodeResearch.Imaging
