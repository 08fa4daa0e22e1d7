import CodeResearch.Artifacts.Archives
import CodeResearch.Artifacts.PublishSpec

/-!
# Archives of results and their readers

A result that was published is extracted exactly when its directory meets the limits of
uploads. The publisher checks none of them.
-/
namespace CodeResearch.Artifacts

def fileOf : Path × Node → Option (Path × Bytes)
  | (path, .file content) => some (path, content)
  | (_, .directory) | (_, .symlink) | (_, .special) => none

def DirectoryTree.files (tree : DirectoryTree) : List (Path × Bytes) :=
  tree.sorted.filterMap fileOf

def entryOf (file : Path × Bytes) : ZipEntry := (asPosix file.1, file.2)

section Publication

variable {cfg : StoreConfig} {env : Env Site} {directoryEnv : Env DirectorySite} {w : World}

/-- The loop writes the regular files. -/
theorem archiveEntries_ends (nodes : List (Path × Node)) (i : ℕ) :
    (archiveEntries directoryEnv i nodes).Ends w
      (fun entries t => t = w ∧ entries = (nodes.filterMap fileOf).map entryOf)
      fun _ _ => True := by
  induction nodes generalizing i with
  | nil => exact Exec.ends_pure ⟨rfl, rfl⟩
  | cons n rest ih =>
    obtain ⟨path, node⟩ := n
    apply Exec.Ends.bind (Q := fun _ t => t = w)
    · exact check_ends (fun _ _ => trivial) fun _ => rfl
    rintro _ t rfl
    cases node with
    | symlink => exact Exec.ends_throw trivial
    | directory | special => exact ih (i + 1)
    | file content =>
      apply Exec.Ends.bind (Q := fun _ u => u = t)
      · exact check_ends (fun _ _ => trivial) fun _ => rfl
      rintro _ u rfl
      apply (ih (i + 1)).bind
      rintro entries u ⟨hu, rfl⟩
      exact Exec.ends_pure ⟨hu, rfl⟩

/-- What `_publish_file` returns, however its clean-up goes. -/
theorem publishFile_returns (req : PublishRequest)
    (hfresh : Fresh cfg w (artifactId req.artifact)
      (stagingKey (artifactId req.artifact) req.staging) req.storageKey) :
    (publishFile cfg env req).Ends w
      (fun _ t => Published cfg w (artifactId req.artifact) req.storageKey
        (contentOf req.source) t)
      fun _ _ => True := by
  have h := req.placed hfresh
  apply Exec.Ends.bind (Q := fun _ t => t = w)
  · exact check_ends (fun _ _ => trivial) fun _ => rfl
  rintro _ t ht
  rw [ht]
  apply Exec.Ends.bind (Q := fun _ t => t = w)
  · exact check_ends (fun _ _ => trivial) fun _ => rfl
  rintro _ t ht
  rw [ht]
  apply ((stage_ends none req.source h.staged).mono (fun _ _ hq => hq) fun _ _ _ => trivial).bind
  rintro _ t ⟨rfl, rfl, _⟩
  apply Exec.Ends.bind (Q := fun _ t => Published cfg w (artifactId req.artifact) req.storageKey
    (contentOf req.source) t)
  · apply Exec.Ends.handle (R := fun _ _ => True)
    · apply (publishRecord_ends h (contentOf req.source) (by rfl) (by rfl) (by rfl) (by rfl)
        (by rfl)).mono
      · rintro _ t ⟨hpublished, _⟩
        exact hpublished
      · exact fun _ _ _ => trivial
    · rintro ⟨e, persisted⟩ t _
      exact Exec.ends_raise _ e
  · rintro _ t hpublished
    exact Exec.ends_pure hpublished

variable (env directoryEnv) in
theorem publishDirectory_returns (zip : Zip) {req : DirectoryRequest} {tree : DirectoryTree}
    (htree : req.directory = some tree)
    (hfresh : Fresh cfg w (artifactId req.artifact)
      (stagingKey (artifactId req.artifact) req.staging) (req.publishRequest []).storageKey) :
    (publishDirectory cfg zip env directoryEnv req).Ends w
      (fun _ t => ∃ archive, zip.write (tree.files.map entryOf) = .ok archive ∧
        Published cfg w (artifactId req.artifact) (req.publishRequest []).storageKey archive t)
      fun _ _ => True := by
  unfold publishDirectory
  rw [htree]
  apply Exec.Ends.bind (Q := fun _ t => t = w)
  · exact check_ends (fun _ _ => trivial) fun _ => rfl
  rintro _ t rfl
  apply Exec.Ends.bind (Q := fun _ u => u = t)
  · exact check_ends (fun _ _ => trivial) fun _ => rfl
  rintro _ u rfl
  apply (archiveEntries_ends _ _).bind
  rintro entries v ⟨rfl, rfl⟩
  apply Exec.Ends.bind (Q := fun archive t =>
    t = v ∧ zip.write (tree.files.map entryOf) = .ok archive)
  · cases hwrite : zip.write (tree.files.map entryOf) with
    | ok archive =>
      exact Exec.ends_of_ok (a := archive) (t := v) (by rw [Exec.runOn_prim]; exact congrArg (·, v) hwrite)
        ⟨rfl, rfl⟩
    | error e =>
      exact Exec.ends_of_error (e := e) (t := v)
        (by rw [Exec.runOn_prim]; exact congrArg (·, v) hwrite) trivial
  rintro archive t ⟨rfl, harchive⟩
  have hcontent : contentOf (req.publishRequest archive).source = archive :=
    req.flatten_chunks archive
  apply (publishFile_returns (req.publishRequest archive) hfresh).mono
  · intro _ u hpublished
    rw [hcontent] at hpublished
    exact ⟨archive, harchive, hpublished⟩
  · exact fun _ _ he => he

end Publication

section Names

variable {path : Path}

structure Relative (path : Path) : Prop where
  proper : path ≠ []
  named : ∀ s ∈ path, FileName s

theorem splitOn_asPosix (h : Relative path) : (asPosix path).splitOn '/' = path :=
  List.splitOn_intercalate '/' (fun s hs => (h.named s hs).separator) h.proper

theorem nil_not_mem (h : Relative path) : [] ∉ path := fun hs => (h.named [] hs).empty rfl

theorem head_asPosix (h : Relative path) : (asPosix path).head? ≠ some '/' := by
  intro hhead
  obtain ⟨rest, hrest⟩ := List.head?_eq_some_iff.mp hhead
  have hsplit := splitOn_asPosix h
  rw [hrest, ← List.nil_append ('/' :: rest), List.splitOn_append_cons_self] at hsplit
  refine nil_not_mem h ?_
  rw [← hsplit]
  simp

theorem getLast_asPosix (h : Relative path) : (asPosix path).getLast? ≠ some '/' := by
  intro hlast
  obtain ⟨front, hfront⟩ := List.getLast?_eq_some_iff.mp hlast
  have hsplit := splitOn_asPosix h
  rw [hfront, List.splitOn_append_cons_self] at hsplit
  refine nil_not_mem h ?_
  rw [← hsplit]
  simp

theorem mem_asPosix {c : Char} (hc : c ∈ asPosix path) : c = '/' ∨ ∃ s ∈ path, c ∈ s := by
  induction path with
  | nil => cases hc
  | cons s rest ih =>
    by_cases hrest : rest = []
    · rw [hrest, asPosix, List.intercalate_singleton] at hc
      exact .inr ⟨s, List.mem_cons_self, hc⟩
    · rw [asPosix, List.intercalate_cons_of_ne_nil hrest, List.append_assoc, List.mem_append,
        List.singleton_append, List.mem_cons] at hc
      rcases hc with hc | hc | hc
      · exact .inr ⟨s, List.mem_cons_self, hc⟩
      · exact .inl hc
      · rcases ih hc with hsep | ⟨t, ht, hct⟩
        · exact .inl hsep
        · exact .inr ⟨t, List.mem_cons_of_mem _ ht, hct⟩

theorem nul_not_mem_asPosix (h : Relative path) : '\x00' ∉ asPosix path := by
  intro hnul
  rcases mem_asPosix hnul with hsep | ⟨s, hs, hin⟩
  · exact absurd hsep (by decide)
  · exact (h.named s hs).nul hin

theorem posixParts_asPosix (h : Relative path) : posixParts (asPosix path) = path := by
  rw [posixParts, if_neg (head_asPosix h), List.nil_append, splitOn_asPosix h,
    List.filter_eq_self]
  intro s hs
  simp [(h.named s hs).empty, (h.named s hs).dot]

theorem foldl_push (h : ∀ s ∈ path, FileName s) (root : Path) :
    path.foldl Path.push root = root ++ path := by
  induction path generalizing root with
  | nil => simp
  | cons s rest ih =>
    rw [List.foldl_cons, Path.push_plain (h s List.mem_cons_self).toPlain,
      ih fun t ht => h t (List.mem_cons_of_mem _ ht)]
    simp

theorem join_asPosix (h : Relative path) (root : Path) :
    root.join (asPosix path) = root ++ path := by
  rw [Path.join, splitOn_asPosix h, foldl_push h.named]

end Names

/-- The member meets the limits on its own. -/
structure MemberFits (limits : ArchiveLimits) (member : ZipInfo) : Prop where
  contained : ¬ (member.filename.head? = some '/' ∨ ['.', '.'] ∈ posixParts member.filename ∨
    '\x00' ∈ member.filename)
  depth : (posixParts member.filename).length ≤ limits.directoryDepth
  names : ∀ part ∈ posixParts member.filename, encodedLength part ≤ limits.filenameBytes
  type : member.fileType ∉ [FileType.link, .character, .block, .fifo]
  ratio : member.fileSize ≤ limits.compressionRatio * max member.compressSize 1
  nested : limits.nestedArchivesAllowed ∨ ¬ NestedArchive (posixParts member.filename)

variable {limits : ArchiveLimits}

theorem validateMember_ok_iff {total next : ℕ} {member : ZipInfo} :
    validateMember limits total member = .ok next ↔ MemberFits limits member ∧
      total + member.fileSize ≤ limits.extractedBytes ∧ next = total + member.fileSize := by
  simp only [validateMember, except_bind_eq_ok_iff, ensure_eq_ok_iff, except_pure_eq_ok_iff,
    exists_const]
  constructor
  · rintro ⟨hcontained, hdepth, hnames, htype, hsize, hratio, hnested, hnext⟩
    exact ⟨⟨hcontained, hdepth, hnames, htype, hratio, hnested⟩, hsize, hnext.symm⟩
  · rintro ⟨h, hsize, hnext⟩
    exact ⟨h.contained, h.depth, h.names, h.type, hsize, h.ratio, h.nested, hnext.symm⟩

theorem foldlM_validateMember (limits : ArchiveLimits) (members : List ZipInfo) {total : ℕ}
    (htotal : total ≤ limits.extractedBytes) :
    (∃ next, members.foldlM (validateMember limits) total = .ok next) ↔
      (∀ member ∈ members, MemberFits limits member) ∧
        total + (members.map ZipInfo.fileSize).sum ≤ limits.extractedBytes := by
  induction members generalizing total with
  | nil => simpa [pure, Except.pure] using htotal
  | cons member rest ih =>
    simp only [List.foldlM_cons, except_bind_eq_ok_iff, List.forall_mem_cons, List.map_cons,
      List.sum_cons]
    constructor
    · rintro ⟨next, total', hmember, hrest⟩
      obtain ⟨hfits, hsize, rfl⟩ := validateMember_ok_iff.mp hmember
      obtain ⟨hall, hsum⟩ := (ih hsize).mp ⟨next, hrest⟩
      exact ⟨⟨hfits, hall⟩, by omega⟩
    · rintro ⟨⟨hfits, hall⟩, hsum⟩
      have hsize : total + member.fileSize ≤ limits.extractedBytes := by omega
      obtain ⟨next, hrest⟩ := (ih hsize).mpr ⟨hall, by omega⟩
      exact ⟨next, _, validateMember_ok_iff.mpr ⟨hfits, hsize, rfl⟩, hrest⟩

/-- A regular file meets the limits on its own. -/
structure FileFits (zip : Zip) (limits : ArchiveLimits) (file : Path × Bytes) : Prop where
  depth : file.1.length ≤ limits.directoryDepth
  names : ∀ part ∈ file.1, encodedLength part ≤ limits.filenameBytes
  ratio : file.2.length ≤ limits.compressionRatio * max (zip.compressSize file.2) 1
  nested : limits.nestedArchivesAllowed ∨ ¬ NestedArchive file.1

theorem memberFits_iff {zip : Zip} {file : Path × Bytes} (h : Relative file.1) :
    MemberFits limits ((entryOf file).info zip.compressSize) ↔ FileFits zip limits file := by
  have hparts : posixParts (asPosix file.1) = file.1 := posixParts_asPosix h
  constructor
  · rintro ⟨_, hdepth, hnames, _, hratio, hnested⟩
    simp only [ZipEntry.info, entryOf, hparts] at hdepth hnames hratio hnested
    exact ⟨hdepth, hnames, hratio, hnested⟩
  · rintro ⟨hdepth, hnames, hratio, hnested⟩
    refine ⟨?_, ?_, ?_, by simp [ZipEntry.info], hratio, ?_⟩ <;>
      simp only [ZipEntry.info, entryOf, hparts]
    · rintro (hhead | hdots | hnul)
      · exact head_asPosix h hhead
      · exact (h.named _ hdots).dots rfl
      · exact nul_not_mem_asPosix h hnul
    · exact hdepth
    · exact hnames
    · exact hnested

/-- Files that can be written one after the other. -/
structure Separate (files : List (Path × Bytes)) : Prop where
  relative : ∀ f ∈ files, Relative f.1
  nodup : (files.map Prod.fst).Nodup
  prefixFree : ∀ f ∈ files, ∀ g ∈ files, f.1 <+: g.1 → f.1 = g.1

namespace DirectoryTree

variable (tree : DirectoryTree)

theorem mem_files {p : Path} {content : Bytes} :
    (p, content) ∈ tree.files ↔ (p, Node.file content) ∈ tree.nodes := by
  rw [files, List.mem_filterMap]
  constructor
  · rintro ⟨⟨q, node⟩, hmem, hfile⟩
    cases node <;> cases hfile
    exact (List.mem_insertionSort _).mp hmem
  · intro hmem
    exact ⟨_, (List.mem_insertionSort _).mpr hmem, rfl⟩

theorem nodup_files : (tree.files.map Prod.fst).Nodup := by
  have hsub : ∀ nodes : List (Path × Node),
      ((nodes.filterMap fileOf).map Prod.fst).Sublist (nodes.map Prod.fst) := by
    intro nodes
    induction nodes with
    | nil => exact .slnil
    | cons n rest ih =>
      obtain ⟨path, node⟩ := n
      cases node with
      | file content => exact ih.cons_cons path
      | directory | symlink | special => exact ih.cons path
  refine (hsub tree.sorted).nodup ?_
  exact ((List.perm_insertionSort _ tree.nodes).map Prod.fst).nodup_iff.mpr tree.nodup

/-- The proper prefixes of a path are directories. -/
theorem directory_of_prefix {q : Path} {node : Node} (hq : (q, node) ∈ tree.nodes) {p : Path}
    (hp : p ≠ []) (hprec : p <+: q) (hne : p ≠ q) : (p, Node.directory) ∈ tree.nodes := by
  induction q using List.reverseRecOn generalizing node with
  | nil => exact absurd (List.prefix_nil.mp hprec) hne
  | append_singleton front s ih =>
    have hfront : p <+: front := by
      rcases List.prefix_concat_iff.mp hprec with heq | hfront
      · exact absurd heq hne
      · exact hfront
    rcases tree.closed _ hq with hempty | hdirectory
    · rw [List.dropLast_concat] at hempty
      rw [hempty] at hfront
      exact absurd (List.prefix_nil.mp hfront) hp
    · rw [List.dropLast_concat] at hdirectory
      by_cases hsame : p = front
      · rwa [hsame]
      · exact ih hdirectory hfront hsame

theorem separate_files : Separate tree.files := by
  constructor
  · rintro ⟨p, content⟩ hf
    have hmem := tree.mem_files.mp hf
    exact ⟨tree.proper _ hmem, tree.named _ hmem⟩
  · exact tree.nodup_files
  · rintro ⟨p, content⟩ hf ⟨q, other⟩ hg hprec
    have hp := tree.mem_files.mp hf
    by_contra hne
    have hdirectory := tree.directory_of_prefix (tree.mem_files.mp hg) (tree.proper _ hp) hprec hne
    have hsame := List.inj_on_of_nodup_map tree.nodup hp hdirectory rfl
    cases hsame

end DirectoryTree

/-- The files of `done` are extracted below the destination. -/
structure Extracted (destination : Path) (done : List (Path × Bytes)) (x : Extraction) : Prop where
  files : ∀ q content, x.files q = some content ↔
    ∃ f ∈ done, q = destination ++ f.1 ∧ content = f.2
  directories : ∀ d ∈ x.directories, d <+: destination ∨
    ∃ f ∈ done, d <+: destination ++ f.1.dropLast

theorem extracted_nil (destination : Path) :
    Extracted destination [] ⟨fun _ => none, destination.inits⟩ := by
  constructor
  · simp
  · intro d hd
    exact .inl ((List.mem_inits _ _).mp hd)

theorem not_prefix_dropLast {p : Path} (hp : p ≠ []) : ¬ p <+: p.dropLast := by
  intro hprec
  have hlen := hprec.length_le
  have hpos := List.length_pos_iff.mpr hp
  rw [List.length_dropLast] at hlen
  omega

section Extract

variable {destination : Path} {done : List (Path × Bytes)} {x : Extraction} {f : Path × Bytes}

/-- The next file is not in the way of a file that was extracted, nor is one in its way. -/
theorem Separate.next (h : Separate (done ++ [f])) {g : Path × Bytes} (hg : g ∈ done) :
    ¬ g.1 <+: f.1 ∧ ¬ f.1 <+: g.1 := by
  have hf : f ∈ done ++ [f] := by simp
  have hg' : g ∈ done ++ [f] := List.mem_append_left _ hg
  have hne : g.1 ≠ f.1 := by
    have hnodup := h.nodup
    rw [List.map_append, List.nodup_append] at hnodup
    exact hnodup.2.2 _ (List.mem_map_of_mem hg) _ (by simp)
  constructor
  · intro hprec
    exact hne (h.prefixFree g hg' f hf hprec)
  · intro hprec
    exact hne (h.prefixFree f hf g hg' hprec).symm

theorem Extracted.member (h : Extracted destination done x) (hsep : Separate (done ++ [f]))
    (compressSize : Bytes → ℕ) :
    ∃ y, extractMember destination x ((entryOf f).info compressSize) = .ok y ∧
      Extracted destination (done ++ [f]) y := by
  have hrelative : Relative f.1 := hsep.relative f (by simp)
  have hparent : (destination ++ f.1).dropLast = destination ++ f.1.dropLast :=
    List.dropLast_append_of_ne_nil hrelative.proper
  -- no file stands where a directory is needed
  have hmkdir : ¬ ∃ q ∈ (destination ++ f.1.dropLast).inits, (x.files q).isSome := by
    rintro ⟨q, hq, hsome⟩
    obtain ⟨content, hcontent⟩ := Option.isSome_iff_exists.mp hsome
    obtain ⟨g, hg, rfl, _⟩ := (h.files q content).mp hcontent
    have hprec := (List.prefix_append_right_inj _).mp ((List.mem_inits _ _).mp hq)
    exact (hsep.next hg).1 (hprec.trans (List.dropLast_prefix _))
  -- and the place of the file is free
  have hfree : ¬ ((x.files (destination ++ f.1)).isSome ∨
      destination ++ f.1 ∈ (destination ++ f.1.dropLast).inits ++ x.directories) := by
    rintro (hsome | hdirectory)
    · obtain ⟨content, hcontent⟩ := Option.isSome_iff_exists.mp hsome
      obtain ⟨g, hg, heq, _⟩ := (h.files _ content).mp hcontent
      have hsame : f.1 = g.1 := List.append_cancel_left heq
      exact (hsep.next hg).1 (hsame ▸ List.prefix_refl _)
    · rcases List.mem_append.mp hdirectory with hparents | hold
      · have hprec := (List.prefix_append_right_inj _).mp ((List.mem_inits _ _).mp hparents)
        exact not_prefix_dropLast hrelative.proper hprec
      · rcases h.directories _ hold with hprec | ⟨g, hg, hprec⟩
        · have hlen := hprec.length_le
          have hpos := List.length_pos_iff.mpr hrelative.proper
          rw [List.length_append] at hlen
          omega
        · have hprec := (List.prefix_append_right_inj _).mp hprec
          exact (hsep.next hg).2 (hprec.trans (List.dropLast_prefix _))
  refine ⟨⟨x.files.write (destination ++ f.1) f.2,
    (destination ++ f.1.dropLast).inits ++ x.directories⟩, ?_, ?_, ?_⟩
  · simp only [extractMember, ZipEntry.info, entryOf, if_neg (head_asPosix hrelative),
      if_neg (getLast_asPosix hrelative), join_asPosix hrelative, hparent]
    rw [ensure_pos (List.prefix_append _ _), except_bind_ok, Extraction.mkdir, if_neg hmkdir,
      except_bind_ok, Extraction.create, if_neg hfree]
  · intro q content
    dsimp only
    by_cases hq : q = destination ++ f.1
    · subst hq
      rw [Files.write_self, Option.some.injEq]
      constructor
      · rintro rfl
        exact ⟨f, by simp, rfl, rfl⟩
      · rintro ⟨g, hg, heq, rfl⟩
        rcases List.mem_append.mp hg with hg | hg
        · have hsame : f.1 = g.1 := List.append_cancel_left heq
          exact absurd (hsame ▸ List.prefix_refl _) (hsep.next hg).1
        · rw [List.mem_singleton.mp hg]
    · rw [Files.write_of_ne _ _ hq, h.files]
      constructor
      · rintro ⟨g, hg, hgq⟩
        exact ⟨g, List.mem_append_left _ hg, hgq⟩
      · rintro ⟨g, hg, hgq, hcontent⟩
        rcases List.mem_append.mp hg with hg | hg
        · exact ⟨g, hg, hgq, hcontent⟩
        · rw [List.mem_singleton.mp hg] at hgq
          exact absurd hgq hq
  · intro d hd
    rcases List.mem_append.mp hd with hparents | hold
    · exact .inr ⟨f, by simp, (List.mem_inits _ _).mp hparents⟩
    · rcases h.directories d hold with hprec | ⟨g, hg, hprec⟩
      · exact .inl hprec
      · exact .inr ⟨g, List.mem_append_left _ hg, hprec⟩

theorem Extracted.members (compressSize : Bytes → ℕ) (rest : List (Path × Bytes))
    (h : Extracted destination done x) (hsep : Separate (done ++ rest)) :
    ∃ y, (rest.map fun f => (entryOf f).info compressSize).foldlM (extractMember destination) x =
      .ok y ∧ Extracted destination (done ++ rest) y := by
  induction rest generalizing done x with
  | nil =>
    rw [List.append_nil]
    exact ⟨x, rfl, h⟩
  | cons f rest ih =>
    have hassoc : done ++ f :: rest = (done ++ [f]) ++ rest := by simp
    have hfirst : Separate (done ++ [f]) := by
      rw [hassoc] at hsep
      refine ⟨?_, ?_, ?_⟩
      · exact fun g hg => hsep.relative g (List.mem_append_left _ hg)
      · have hnodup := hsep.nodup
        rw [List.map_append] at hnodup
        exact hnodup.of_append_left
      · exact fun g hg k hk => hsep.prefixFree g (List.mem_append_left _ hg) k
          (List.mem_append_left _ hk)
    obtain ⟨y, hy, hextracted⟩ := h.member hfirst compressSize
    rw [hassoc] at hsep ⊢
    obtain ⟨z, hz, hall⟩ := ih hextracted hsep
    refine ⟨z, ?_, hall⟩
    rw [List.map_cons, List.foldlM_cons, hy, except_bind_ok, hz]

end Extract

/-- The directory meets the limits that the reader checks. -/
structure DirectoryTree.Readable (tree : DirectoryTree) (zip : Zip) (limits : ArchiveLimits) :
    Prop where
  archive : ∀ archive, zip.write (tree.files.map entryOf) = .ok archive →
    archive.length ≤ limits.compressedBytes
  count : tree.files.length ≤ limits.fileCount
  fits : ∀ f ∈ tree.files, FileFits zip limits f
  extracted : (tree.files.map fun f => f.2.length).sum ≤ limits.extractedBytes

def DirectoryTree.Restored (tree : DirectoryTree) (destination : Path) (x : Extraction) : Prop :=
  ∀ q content, x.files q = some content ↔
    ∃ p, q = destination ++ p ∧ (p, Node.file content) ∈ tree.nodes

section Reader

variable {zip : Zip} {limits : ArchiveLimits} {tree : DirectoryTree} {archive : Bytes}

/-- The checks pass exactly for a readable directory, and read its files. -/
theorem validateArchive_ok_iff (hwrite : zip.write (tree.files.map entryOf) = .ok archive)
    {members : List ZipInfo} :
    validateArchive zip limits archive = .ok members ↔ tree.Readable zip limits ∧
      members = tree.files.map fun f => (entryOf f).info zip.compressSize := by
  have hread : zip.infolist archive =
      some (tree.files.map fun f => (entryOf f).info zip.compressSize) := by
    rw [zip.infolist_write _ _ hwrite, List.map_map]
    rfl
  have hchecks := foldlM_validateMember limits
    (tree.files.map fun f => (entryOf f).info zip.compressSize) (Nat.zero_le _)
  have hsizes : (tree.files.map fun f => (entryOf f).info zip.compressSize).map ZipInfo.fileSize =
      tree.files.map fun f => f.2.length := by
    rw [List.map_map]
    rfl
  rw [hsizes, Nat.zero_add, List.forall_mem_map] at hchecks
  simp only [validateArchive, hread, orError_some, except_bind_ok, except_bind_eq_ok_iff,
    ensure_eq_ok_iff, except_pure_eq_ok_iff, exists_const, List.length_map]
  constructor
  · rintro ⟨hsize, hcount, next, hnext, rfl⟩
    obtain ⟨hfits, hextracted⟩ := hchecks.mp ⟨next, hnext⟩
    refine ⟨⟨?_, hcount, ?_, hextracted⟩, rfl⟩
    · intro other hother
      rw [Except.ok.inj (hother.symm.trans hwrite)]
      exact hsize
    · intro f hf
      exact (memberFits_iff (tree.separate_files.relative f hf)).mp (hfits f hf)
  · rintro ⟨h, rfl⟩
    obtain ⟨next, hnext⟩ := hchecks.mpr ⟨fun f hf =>
      (memberFits_iff (tree.separate_files.relative f hf)).mpr (h.fits f hf), h.extracted⟩
    exact ⟨h.archive archive hwrite, h.count, next, hnext, rfl⟩

theorem restored_of_extracted {destination : Path} {x : Extraction}
    (h : Extracted destination tree.files x) : tree.Restored destination x := by
  intro q content
  rw [h.files]
  constructor
  · rintro ⟨⟨p, other⟩, hf, hq, rfl⟩
    exact ⟨p, hq, tree.mem_files.mp hf⟩
  · rintro ⟨p, hq, hmem⟩
    exact ⟨(p, content), tree.mem_files.mpr hmem, hq, rfl⟩

theorem extract_iff (hwrite : zip.write (tree.files.map entryOf) = .ok archive)
    (destination : Path) :
    (∃ x, extractValidatedArchive zip limits archive destination = .ok x ∧
      tree.Restored destination x) ↔ tree.Readable zip limits := by
  simp only [extractValidatedArchive, except_bind_eq_ok_iff, validateArchive_ok_iff hwrite]
  constructor
  · rintro ⟨x, ⟨_, ⟨hreadable, _⟩, _⟩, _⟩
    exact hreadable
  · intro hreadable
    obtain ⟨x, hx, hextracted⟩ := (extracted_nil destination).members zip.compressSize tree.files
      (by simpa using tree.separate_files)
    exact ⟨x, ⟨_, ⟨hreadable, rfl⟩, hx⟩, restored_of_extracted hextracted⟩

end Reader

/-- A publication of a directory that returned, with new identifiers. -/
structure ResultPublication (cfg : StoreConfig) (zip : Zip) where
  world : World
  env : Env Site
  directoryEnv : Env DirectorySite
  request : DirectoryRequest
  tree : DirectoryTree
  directory : request.directory = some tree
  fresh : Fresh cfg world (artifactId request.artifact)
    (stagingKey (artifactId request.artifact) request.staging)
    (request.publishRequest []).storageKey
  returned : ∃ id, ((publishDirectory cfg zip env directoryEnv request).runOn world).1 = .ok id

namespace ResultPublication

variable {cfg : StoreConfig} {zip : Zip} (p : ResultPublication cfg zip)

def result : World := ((publishDirectory cfg zip p.env p.directoryEnv p.request).runOn p.world).2

def Agrees : Prop :=
  ∃ r archive, p.result.records.find? (artifactId p.request.artifact) = some r ∧
    r.status = .available ∧ p.result.blobAt cfg r.storageKey = some archive ∧
      ∀ destination, ∃ x, extractValidatedArchive zip {} archive destination = .ok x ∧
        p.tree.Restored destination x

theorem archived : ∃ r archive, zip.write (p.tree.files.map entryOf) = .ok archive ∧
    p.result.records.find? (artifactId p.request.artifact) = some r ∧
      r.status = .available ∧ p.result.blobAt cfg r.storageKey = some archive := by
  have hends := publishDirectory_returns p.env p.directoryEnv zip p.directory p.fresh
  obtain ⟨id, hreturned⟩ := p.returned
  unfold Exec.Ends at hends
  split at hends
  · rename_i id' t hrun
    obtain ⟨archive, hwrite, q, r, hq, hr, ht⟩ := hends
    have hresult : p.result = (p.world.write q archive).put r := by
      rw [result, hrun]
      exact ht
    refine ⟨r, archive, hwrite, ?_, hr.available, ?_⟩
    · rw [hresult, ← hr.artifactId]
      exact put_find? _ r
    · rw [hr.storageKey, blobAt_ok cfg hq, hresult]
      exact Files.write_self _ _
  · rename_i e t hrun
    rw [hrun] at hreturned
    cases hreturned

/-- The reader agrees with the publisher exactly on the directories that meet its limits. -/
theorem agrees_iff : p.Agrees ↔ p.tree.Readable zip {} := by
  obtain ⟨r, archive, hwrite, hr, havailable, hblob⟩ := p.archived
  constructor
  · rintro ⟨r', archive', hr', _, hblob', hextracts⟩
    obtain rfl : r = r' := Option.some.inj (hr.symm.trans hr')
    obtain rfl : archive = archive' := Option.some.inj (hblob.symm.trans hblob')
    exact (extract_iff hwrite []).mp (hextracts [])
  · intro hreadable
    refine ⟨r, archive, hr, havailable, hblob, ?_⟩
    intro destination
    exact (extract_iff hwrite destination).mpr hreadable

def sampleTree : DirectoryTree where
  nodes := [(["data.gz".toList], .file [])]
  nodup := by simp
  proper := by simp
  named := by
    intro n hn s hs
    rw [List.mem_singleton.mp hn] at hs
    rw [List.mem_singleton.mp hs]
    exact { separator := by decide, empty := by decide, dot := by decide, dots := by decide,
            nul := by decide }
  closed := by simp

def sampleArchive : Bytes :=
  [80, 75, 3, 4, 20, 0, 0, 0, 8, 0, 170, 177, 110, 87, 0, 0, 0, 0, 2, 0, 0, 0, 0, 0, 0, 0, 7, 0,
    0, 0, 100, 97, 116, 97, 46, 103, 122, 3, 0, 80, 75, 1, 2, 20, 3, 20, 0, 0, 0, 8, 0, 170,
    177, 110, 87, 0, 0, 0, 0, 2, 0, 0, 0, 0, 0, 0, 0, 7, 0, 0, 0, 0, 0, 0, 0, 0, 0, 0, 0, 164,
    129, 0, 0, 0, 0, 100, 97, 116, 97, 46, 103, 122, 80, 75, 5, 6, 0, 0, 0, 0, 1, 0, 1, 0, 53,
    0, 0, 0, 39, 0, 0, 0, 0, 0]

def sampleZip : Zip where
  compressSize := fun _ => 2
  write := fun entries =>
    if entries = [("data.gz".toList, [])] then .ok sampleArchive else .error .other
  infolist := fun archive =>
    if archive = sampleArchive then some [⟨"data.gz".toList, 0, 2, .regular, []⟩] else none
  infolist_write := by
    intro entries archive h
    split_ifs at h with hentries
    cases h
    rw [if_pos rfl, hentries]
    rfl

def samplePublication : ResultPublication sampleStore sampleZip where
  world := ⟨Table.empty, fun _ => none⟩
  env := ⟨fun _ => none, fun _ => 1⟩
  directoryEnv := ⟨fun _ => none, fun _ => 1⟩
  request :=
    { workspaceId := "ws_1"
      projectId := some "project_1"
      kind := .report
      directory := some sampleTree
      chunks := fun archive => if h : archive = [] then [] else [⟨archive, h⟩]
      flatten_chunks := by
        intro archive
        split_ifs with h
        · exact h.symm
        · simp
      artifact := ⟨"1", by decide⟩
      staging := ⟨"2", by decide⟩ }
  tree := sampleTree
  directory := rfl
  fresh := ⟨rfl, by simp, by decide +kernel, by decide +kernel⟩
  returned := ⟨"artifact_1", by decide +kernel⟩

/-- The reader refuses what was published. -/
theorem samplePublication_refused : ¬ ∀ cfg zip (p : ResultPublication cfg zip), p.Agrees := by
  intro hall
  obtain ⟨r, archive, hr, _, hblob, hextracts⟩ := hall _ _ samplePublication
  obtain ⟨r', archive', hwrite, hr', _, hblob'⟩ := samplePublication.archived
  obtain rfl : r = r' := Option.some.inj (hr.symm.trans hr')
  obtain rfl : archive = archive' := Option.some.inj (hblob.symm.trans hblob')
  have hreadable := (extract_iff hwrite []).mp (hextracts [])
  have hmem : (["data.gz".toList], []) ∈ sampleTree.files :=
    sampleTree.mem_files.mpr List.mem_cons_self
  rcases (hreadable.fits _ hmem).nested with hallowed | hnested
  · cases hallowed
  · exact hnested (by decide)

end ResultPublication

end CodeResearch.Artifacts
