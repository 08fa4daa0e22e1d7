import CodeResearch.Artifacts.Extraction

/-!
# Unpacking an uploaded project

`unzip_project` skips unsafe members, writes the others one by one below the source
directory, and removes that directory again on `BadZipFile` only.
-/
namespace CodeResearch.Artifacts.Unzip

/-- What a call raises: `BadZipFile` with its text, or any other exception. -/
inductive Failure
  | badZipFile (text : String) | other
deriving DecidableEq

/-- An entry of `infolist()`: what opening it raises, what is read from it, and what ends the
reading early. -/
structure Member where
  filename : List Char
  fileSize : ℕ
  opened : Option Failure
  content : Bytes
  failure : Option Failure
deriving DecidableEq

/-- `ZipInfo.is_dir`. -/
def Member.IsDir (m : Member) : Prop := m.filename.getLast? = some '/'

instance (m : Member) : Decidable m.IsDir := inferInstanceAs (Decidable (_ = _))

/-- What stands at the path of the archive. -/
inductive Source
  | missing | notZip | zip (members : Except Failure (List Member))

inductive SkipReason
  | absolutePath | pathTraversal | dangerousExtension | fileTooLarge
deriving DecidableEq

structure ToolError where
  tool : String
  path : Path
  errorType : String
  message : String
deriving DecidableEq

structure UnzipResult where
  success : Bool
  taskId : Segment
  zipPath : Path
  outputDir : Path
  repoPath : Option Path := none
  extractedFileCount : ℕ := 0
  skippedFiles : List (List Char × SkipReason) := []
  errors : List ToolError := []
deriving DecidableEq

/-- Which paths can be stored, and how many links a path may follow. -/
structure FileSystem where
  storable : Path → Bool
  links : ℕ

/-- The tree, and what the loop has counted. -/
structure Progress where
  tree : FileTree Bytes
  skippedFiles : List (List Char × SkipReason) := []
  extractedCount : ℕ := 0

/-- Where a source directory is to be made: no link leads to it or stands in it, and what
leads to it are directories or places for them. -/
structure Place (fs : FileSystem) where
  outputRoot : Path
  taskId : Segment
  tree : FileTree Bytes
  named : ∀ s ∈ outputRoot ++ [taskId], FileTree.Named s
  ready : ∀ q, q <+: outputRoot ++ [taskId, "source".toList] →
    tree.entry q = some .directory ∨ tree.entry q = none ∧ fs.storable q
  unlinked : ∀ q, outputRoot ++ [taskId, "source".toList] <+: q → tree.linkAt q = none

def Place.outputDir {fs : FileSystem} (p : Place fs) : Path := p.outputRoot ++ [p.taskId]

def Place.repoPath {fs : FileSystem} (p : Place fs) : Path :=
  p.outputRoot ++ [p.taskId, "source".toList]

def defaultMaxExtractSizeBytes : ℕ := 10 * 1024 * 1024

/-- The suffixes are plain letters: of the other letters only the Kelvin sign is one of them
in lower case. -/
def lowerChar (c : Char) : Char := if c = '\u212a' then 'k' else c.toLower

def dangerousExtensions : List Segment :=
  [".pt", ".pth", ".ckpt", ".onnx", ".mp4", ".avi", ".mov", ".png", ".jpg", ".jpeg", ".npy",
    ".npz", ".zip", ".tar", ".gz"].map String.toList

local instance lawfulName : LawfulBEq (List Char) := inferInstance

/-- `_skip_reason`. -/
def skipReason (memberName : List Char) (fileSize maxMemberSize : ℕ) : Option SkipReason :=
  let parts := posixParts memberName
  if memberName.head? = some '/' then some .absolutePath
  else if ['.', '.'] ∈ parts then some .pathTraversal
  else if (posixSuffix (parts.getLastD [])).map lowerChar ∈ dangerousExtensions then
    some .dangerousExtension
  else if fileSize > maxMemberSize then some .fileTooLarge
  else none

variable (fs : FileSystem)

/-- `os.mkdir`, where a directory may stand already. -/
def mkdirOnce (p : Path) : Exec Failure Progress Unit :=
  Exec.prim fun d =>
    match if fs.storable p then d.tree.mkdir p else .error .failed with
    | .ok t => (.ok (), { d with tree := t })
    | .error _ => if d.tree.entry p = some .directory then (.ok (), d) else (.error .other, d)

/-- `mkdir(parents=True, exist_ok=True)`, from a directory on. -/
def mkdirFrom : Path → List Segment → Exec Failure Progress Unit
  | _, [] => pure ()
  | p, s :: names => do
    mkdirOnce fs (p ++ [s])
    mkdirFrom (p ++ [s]) names

def mkdir (p : Path) : Exec Failure Progress Unit := mkdirFrom fs [] p

/-- `target.open("wb")`. -/
def openWrite (target : Path) : Exec Failure Progress Unit :=
  Exec.command fun d =>
    match d.tree.entry target with
    | some (.file _) =>
      match d.tree.write target [] with
      | .ok t => .ok { d with tree := t }
      | .error _ => .error .other
    | _ =>
      match if fs.storable target then d.tree.create target [] else .error .failed with
      | .ok t => .ok { d with tree := t }
      | .error _ => .error .other

/-- `shutil.copyfileobj`, with what ends it early. -/
def copyfileobj (m : Member) (target : Path) : Exec Failure Progress Unit :=
  Exec.prim fun d =>
    let next := { d with tree := Disk.written d.tree target m.content }
    match m.failure with
    | some e => (.error e, next)
    | none => (.ok (), next)

/-- `is_within_directory`. -/
def isWithinDirectory (base target : Path) : Exec Failure Progress Bool :=
  Exec.query fun d =>
    match d.tree.walk fs.links [] base, d.tree.walk fs.links [] target with
    | .ok base, .ok candidate => .ok (decide (base <+: candidate))
    | _, _ => .error .other

def skip (memberName : List Char) (reason : SkipReason) : Exec Failure Progress Unit :=
  Exec.prim fun d => (.ok (), { d with skippedFiles := d.skippedFiles ++ [(memberName, reason)] })

/-- What `open` of the archive raises. -/
def openMember (m : Member) : Exec Failure Progress Unit :=
  match m.opened with
  | some e => throw e
  | none => pure ()

def extractMember (m : Member) (target : Path) : Exec Failure Progress Unit :=
  if m.IsDir then mkdir fs target
  else do
    mkdir fs target.dropLast
    openMember m
    openWrite fs target
    copyfileobj m target
    Exec.prim fun d => (.ok (), { d with extractedCount := d.extractedCount + 1 })

/-- The loop of `unzip_project`. -/
def unzipMember (repoPath : Path) (maxMemberSize : ℕ) (m : Member) :
    Exec Failure Progress PUnit :=
  let target := repoPath ++ posixParts m.filename
  match skipReason m.filename m.fileSize maxMemberSize with
  | some reason => skip m.filename reason
  | none => do
    if ← isWithinDirectory fs repoPath target then extractMember fs m target
    else skip m.filename .pathTraversal

/-- What `unzip_project` does inside of its `try`. -/
def unpack (p : Place fs) (sourceZip : Path) (maxMemberSize : ℕ)
    (infolist : Except Failure (List Member)) : Exec Failure Progress UnzipResult := do
  let members ← Exec.query fun _ => infolist
  members.forM (unzipMember fs p.repoPath maxMemberSize)
  Exec.query fun d => .ok
    { success := true
      taskId := p.taskId
      zipPath := sourceZip
      outputDir := p.outputDir
      repoPath := some p.repoPath
      extractedFileCount := d.extractedCount
      skippedFiles := d.skippedFiles }

/-- `unzip_project`. -/
def unzipProject (p : Place fs) (sourceZip : Path) (source : Source) (maxMemberSize : ℕ) :
    Exec Failure Progress UnzipResult :=
  let failed (errorType message : String) : UnzipResult :=
    { success := false
      taskId := p.taskId
      zipPath := sourceZip
      outputDir := p.outputDir
      errors := [⟨"unzip_tool", sourceZip, errorType, message⟩] }
  match source with
  | .missing => pure (failed "FileNotFoundError" "ZIP file does not exist.")
  | .notZip => pure (failed "BadZipFile" "Input path is not a valid ZIP file.")
  | .zip members => do
    mkdir fs p.repoPath
    tryCatch (unpack fs p sourceZip maxMemberSize members) fun e =>
      match e with
      | .badZipFile text =>
        Exec.prim fun d => (.ok { failed "BadZipFile" text with
            repoPath := some p.repoPath
            extractedFileCount := d.extractedCount
            skippedFiles := d.skippedFiles },
          { d with tree := d.tree.rmtree [] p.repoPath })
      | .other => throw .other

section After

variable {fs} {p : Place fs} {before : List Member} {m : Member} {q : Path}

def Place.target (p : Place fs) (m : Member) : Path := p.repoPath ++ posixParts m.filename

def Place.way (p : Place fs) (m : Member) : Path :=
  if m.IsDir then p.target m else (p.target m).dropLast

def Place.lastContent (p : Place fs) (before : List Member) (q : Path) : Option Bytes :=
  (before.filter fun m => ¬ m.IsDir ∧ p.target m = q).getLast?.map Member.content

def Place.entryAfter (p : Place fs) (before : List Member) (q : Path) : Option (Entry Bytes) :=
  match p.lastContent before q with
  | some content => some (.file content)
  | none =>
    if q <+: p.repoPath ∨ ∃ m ∈ before, q <+: p.way m then some .directory else p.tree.entry q

def FileSystem.Room (fs : FileSystem) (entry : Path → Option (Entry Bytes)) (q : Path) : Prop :=
  entry q = some .directory ∨ entry q = none ∧ fs.storable q

def FileSystem.FileRoom (fs : FileSystem) (entry : Path → Option (Entry Bytes)) (q : Path) :
    Prop := (∃ content, entry q = some (.file content)) ∨ entry q = none ∧ fs.storable q

/-- A member that is read to its end. -/
def Member.Whole (m : Member) : Prop := m.IsDir ∨ m.opened = none ∧ m.failure = none

/-- A member raises nothing but `BadZipFile`: directories lead to it, its file can be opened,
and so can its data. -/
structure Place.Passes (p : Place fs) (before : List Member) (m : Member) : Prop where
  way : ∀ q, q <+: p.way m → fs.Room (p.entryAfter before) q
  opened : ¬ m.IsDir → m.opened ≠ some .other
  target : ¬ m.IsDir → m.opened = none → fs.FileRoom (p.entryAfter before) (p.target m)
  read : ¬ m.IsDir → m.opened = none → m.failure ≠ some .other

def Place.Proceeds (p : Place fs) : List Member → List Member → Prop
  | _, [] => True
  | before, m :: rest => p.Passes before m ∧ (m.Whole → p.Proceeds (before ++ [m]) rest)

def Place.Holds (p : Place fs) (before : List Member) (t : FileTree Bytes) : Prop :=
  ∀ q, t.entry q = p.entryAfter before q

end After

section Calls

variable {fs} {d : Progress} {p q : Path}

theorem mkdirOnce_ok (hroom : fs.Room d.tree.entry p)
    (hparent : d.tree.entry p.dropLast = some .directory) :
    ∃ u, (mkdirOnce fs p).runOn d = (.ok (), { d with tree := u }) ∧
      u.entry p = some .directory ∧ ∀ q, q ≠ p → u.entry q = d.tree.entry q := by
  rcases hroom with hdirectory | ⟨hnone, hstorable⟩
  · refine ⟨d.tree, ?_, hdirectory, fun _ _ => rfl⟩
    rw [mkdirOnce, Exec.runOn_prim]
    have herror : d.tree.mkdir p = .error .failed := by
      rw [FileTree.mkdir, dif_neg]
      rw [hdirectory]
      nofun
    rw [herror, ite_self]
    dsimp only
    rw [if_pos hdirectory]
  · obtain ⟨u, hu⟩ : ∃ u, d.tree.mkdir p = .ok u :=
      ⟨_, by rw [FileTree.mkdir, dif_pos hnone, dif_pos hparent]⟩
    have hadded := FileTree.added_of_mkdir hu
    refine ⟨u, ?_, hadded.entry, hadded.frame⟩
    rw [mkdirOnce, Exec.runOn_prim, if_pos hstorable, hu]

theorem mkdirOnce_error (hroom : ¬ fs.Room d.tree.entry p) :
    (mkdirOnce fs p).runOn d = (.error .other, d) := by
  have hdirectory : ¬ d.tree.entry p = some .directory := fun h => hroom (.inl h)
  rw [mkdirOnce, Exec.runOn_prim]
  split_ifs with hstorable
  · have herror : ∃ e, d.tree.mkdir p = .error e := by
      rw [FileTree.mkdir, dif_neg fun hnone => hroom (.inr ⟨hnone, hstorable⟩)]
      exact ⟨_, rfl⟩
    obtain ⟨e, he⟩ := herror
    rw [he]
  · rfl

variable {names : List Segment}

/-- Making directories succeeds where each is there already or has its place. -/
theorem mkdirFrom_ok (hbase : d.tree.entry p = some .directory)
    (hroom : ∀ q, p <+: q → q <+: p ++ names → fs.Room d.tree.entry q) :
    ∃ u, (mkdirFrom fs p names).runOn d = (.ok (), { d with tree := u }) ∧
      ∀ q, u.entry q = if p <+: q ∧ q <+: p ++ names then some .directory
        else d.tree.entry q := by
  induction names generalizing p d with
  | nil =>
    refine ⟨d.tree, rfl, fun q => ?_⟩
    split_ifs with h
    · rw [List.append_nil] at h
      rw [← h.1.eq_of_length_le h.2.length_le, hbase]
    · rfl
  | cons s names ih =>
    have hconcat : p ++ s :: names = p ++ [s] ++ names := by rw [List.append_assoc, List.singleton_append]
    have hnext : p ++ [s] <+: p ++ s :: names := hconcat ▸ List.prefix_append _ _
    obtain ⟨u, hrun, hentry, hframe⟩ := mkdirOnce_ok
      (hroom (p ++ [s]) (List.prefix_append _ _) hnext) (by rwa [List.dropLast_concat])
    obtain ⟨v, hrun', hentries⟩ := ih (d := { d with tree := u }) hentry fun q hpq hq => by
      by_cases heq : q = p ++ [s]
      · exact .inl (heq ▸ hentry)
      · have := hroom q ((List.prefix_append _ _).trans hpq) (hconcat ▸ hq)
        rw [FileSystem.Room, hframe q heq]
        exact this
    refine ⟨v, ?_, fun q => ?_⟩
    · rw [mkdirFrom, Exec.runOn_bind_ok hrun, hrun']
    · rw [hentries q, ← hconcat]
      by_cases hle : q <+: p ++ s :: names
      · by_cases hpsq : p ++ [s] <+: q
        · rw [if_pos ⟨hpsq, hle⟩, if_pos ⟨(List.prefix_append _ _).trans hpsq, hle⟩]
        · rw [if_neg fun h => hpsq h.1]
          have hne : q ≠ p ++ [s] := by
            rintro rfl
            exact hpsq (List.prefix_refl _)
          rw [hframe q hne]
          split_ifs with h
          · rcases List.prefix_or_prefix_of_prefix hle hnext with hq | hq
            · rcases List.prefix_concat_iff.mp hq with heq | hq
              · exact absurd heq hne
              · rw [← h.1.eq_of_length_le hq.length_le, hbase]
            · exact absurd hq hpsq
          · rfl
      · rw [if_neg fun h => hle h.2, if_neg fun h => hle h.2]
        apply hframe
        rintro rfl
        exact hle hnext

theorem mkdirFrom_error (hbase : d.tree.entry p = some .directory)
    (hroom : ¬ ∀ q, p <+: q → q <+: p ++ names → fs.Room d.tree.entry q) :
    ∃ e, (mkdirFrom fs p names).runOn d = (.error .other, e) := by
  induction names generalizing p d with
  | nil =>
    refine absurd ?_ hroom
    intro q hpq hq
    rw [List.append_nil] at hq
    rw [← hpq.eq_of_length_le hq.length_le]
    exact .inl hbase
  | cons s names ih =>
    have hconcat : p ++ s :: names = p ++ [s] ++ names := by rw [List.append_assoc, List.singleton_append]
    by_cases hfirst : fs.Room d.tree.entry (p ++ [s])
    · obtain ⟨u, hrun, hentry, hframe⟩ := mkdirOnce_ok hfirst (by rwa [List.dropLast_concat])
      obtain ⟨e, he⟩ := ih (d := { d with tree := u }) hentry fun hall => hroom fun q hpq hq => by
        by_cases hqp : q = p
        · exact .inl (hqp ▸ hbase)
        · by_cases heq : q = p ++ [s]
          · exact heq ▸ hfirst
          · have hpsq : p ++ [s] <+: q := by
              have hnext : p ++ [s] <+: p ++ s :: names := hconcat ▸ List.prefix_append _ _
              rcases List.prefix_or_prefix_of_prefix hq hnext with hq | hq
              · rcases List.prefix_concat_iff.mp hq with heq' | hq
                · exact absurd heq' heq
                · exact absurd (hpq.eq_of_length_le hq.length_le).symm hqp
              · exact hq
            have := hall q hpsq (hconcat ▸ hq)
            rwa [FileSystem.Room, hframe q heq] at this
      exact ⟨e, by rw [mkdirFrom, Exec.runOn_bind_ok hrun, he]⟩
    · exact ⟨d, by rw [mkdirFrom, Exec.runOn_bind_error (mkdirOnce_error hfirst)]⟩

theorem mkdir_ok (hroom : ∀ q, q <+: p → fs.Room d.tree.entry q) :
    ∃ u, (mkdir fs p).runOn d = (.ok (), { d with tree := u }) ∧
      ∀ q, u.entry q = if q <+: p then some .directory else d.tree.entry q := by
  have hnames : ∀ q, [] <+: q → q <+: [] ++ p → fs.Room d.tree.entry q := fun q _ hq => hroom q hq
  obtain ⟨u, hrun, hentry⟩ := mkdirFrom_ok d.tree.root hnames
  refine ⟨u, hrun, fun q => ?_⟩
  rw [hentry q, List.nil_append]
  simp only [List.nil_prefix, true_and]

theorem mkdir_error (hroom : ¬ ∀ q, q <+: p → fs.Room d.tree.entry q) :
    ∃ e, (mkdir fs p).runOn d = (.error .other, e) :=
  mkdirFrom_error d.tree.root fun hall => hroom fun q hq => hall q List.nil_prefix hq

theorem openWrite_ok (hroom : fs.FileRoom d.tree.entry p)
    (hparent : d.tree.entry p.dropLast = some .directory) :
    ∃ u, (openWrite fs p).runOn d = (.ok (), { d with tree := u }) ∧
      u.entry p = some (.file []) ∧ ∀ q, q ≠ p → u.entry q = d.tree.entry q := by
  rcases hroom with ⟨old, hold⟩ | ⟨hnone, hstorable⟩
  · obtain ⟨u, hu⟩ := @FileTree.exists_write _ _ _ [] ⟨old, hold⟩
    obtain ⟨_, hfile, hframe⟩ := FileTree.write_eq_ok hu
    refine ⟨u, Exec.runOn_command_ok ?_, hfile, hframe⟩
    rw [hold]
    dsimp only
    rw [hu]
  · obtain ⟨u, hu⟩ : ∃ u, d.tree.create p [] = .ok u :=
      ⟨_, by rw [FileTree.create, dif_pos hnone, dif_pos hparent]⟩
    have hadded := FileTree.added_of_create hu
    refine ⟨u, Exec.runOn_command_ok ?_, hadded.entry, hadded.frame⟩
    rw [hnone]
    dsimp only
    rw [if_pos hstorable, hu]

theorem openWrite_error (hroom : ¬ fs.FileRoom d.tree.entry p) :
    (openWrite fs p).runOn d = (.error .other, d) := by
  apply Exec.runOn_command_error
  have hfile : ∀ content, d.tree.entry p ≠ some (.file content) :=
    fun content h => hroom (.inl ⟨content, h⟩)
  split
  · rename_i content h
    exact absurd h (hfile content)
  · split_ifs with hstorable
    · rw [FileTree.create, dif_neg fun hnone => hroom (.inr ⟨hnone, hstorable⟩)]
    · rfl

theorem entry_written {t : FileTree Bytes} {content : Bytes}
    (h : ∃ old, t.entry p = some (.file old)) :
    (Disk.written t p content).entry p = some (.file content) ∧
      ∀ q, q ≠ p → (Disk.written t p content).entry q = t.entry q := by
  obtain ⟨u, hu⟩ := @FileTree.exists_write _ _ _ content h
  obtain ⟨_, hfile, hframe⟩ := FileTree.write_eq_ok hu
  rw [Disk.written, hu]
  exact ⟨hfile, hframe⟩

theorem copyfileobj_error {m : Member} {e : Failure} (h : m.failure = some e) :
    (copyfileobj m p).runOn d =
      (.error e, { d with tree := Disk.written d.tree p m.content }) := by
  rw [copyfileobj, Exec.runOn_prim, h]

end Calls

section Step

variable {fs} {p : Place fs} {before : List Member} {m : Member} {d : Progress}

theorem lastContent_concat (q : Path) : p.lastContent (before ++ [m]) q =
    if ¬ m.IsDir ∧ p.target m = q then some m.content else p.lastContent before q := by
  rw [Place.lastContent, List.filter_append]
  split_ifs with h
  · rw [List.filter_cons_of_pos (by rwa [decide_eq_true_eq]), List.filter_nil,
      List.getLast?_concat, Option.map_some]
  · rw [List.filter_cons_of_neg (by rwa [decide_eq_true_eq]), List.filter_nil, List.append_nil,
      Place.lastContent]

variable {names : Path} {maxMemberSize : ℕ}

/-- No link stands on the way to a place below the source directory. -/
theorem entryAfter_ne_link {q : Path} (hq : q <+: p.repoPath ++ names) (target : List Char) :
    p.entryAfter before q ≠ some (.link target) := by
  intro h
  unfold Place.entryAfter at h
  split at h
  · cases h
  · split_ifs at h with hdirectory
    · cases h
    have hbelow : p.repoPath <+: q := by
      rcases List.prefix_or_prefix_of_prefix hq (List.prefix_append _ names) with hle | hle
      · exact absurd (Or.inl hle) hdirectory
      · exact hle
    have hlink := p.unlinked q hbelow
    rw [FileTree.linkAt, h] at hlink
    cases hlink

theorem named_repoPath : ∀ s ∈ p.repoPath, FileTree.Named s := by
  intro s hs
  have heq : p.repoPath = p.outputRoot ++ [p.taskId] ++ ["source".toList] := by
    rw [Place.repoPath, List.append_assoc, List.singleton_append]
  rw [heq] at hs
  rcases List.mem_append.mp hs with hs | hs
  · exact p.named s hs
  · rw [List.mem_singleton.mp hs]
    unfold FileTree.Named
    decide

theorem named_posixParts (h : skipReason m.filename m.fileSize maxMemberSize = none) :
    ∀ s ∈ posixParts m.filename, FileTree.Named s := by
  unfold skipReason at h
  dsimp only at h
  split_ifs at h with hhead hdots
  intro s hs
  refine ⟨?_, ?_, fun heq => hdots (heq ▸ hs)⟩ <;>
    (rw [posixParts, if_neg hhead, List.nil_append, List.mem_filter, decide_eq_true_eq] at hs)
  · exact hs.2.1
  · exact hs.2.2

theorem walk_of_named (hnamed : ∀ s ∈ names, FileTree.Named s)
    (hholds : p.Holds before d.tree) (hnames : names <+: p.repoPath ++ names.drop p.repoPath.length) :
    d.tree.walk fs.links [] names = .ok names := by
  have hfilter : (names.filter fun s => s ≠ [] ∧ s ≠ ['.']) = names := by
    rw [List.filter_eq_self]
    intro s hs
    rw [decide_eq_true_eq]
    exact ⟨(hnamed s hs).1, (hnamed s hs).2.1⟩
  rw [FileTree.walk_eq fun s hs => (hnamed s hs).2.2, hfilter, List.nil_append]
  intro front hfront
  rw [hfilter] at hfront
  rw [List.nil_append, FileTree.linkAt, hholds]
  split
  · rename_i target htarget
    exact absurd htarget (entryAfter_ne_link (hfront.trans hnames) target)
  · rfl

/-- A member that is not skipped stays within the source directory. -/
theorem isWithinDirectory_of_holds (hskip : skipReason m.filename m.fileSize maxMemberSize = none)
    (hholds : p.Holds before d.tree) :
    (isWithinDirectory fs p.repoPath (p.target m)).runOn d = (.ok true, d) := by
  have hbase : d.tree.walk fs.links [] p.repoPath = .ok p.repoPath := by
    refine walk_of_named named_repoPath hholds ?_
    rw [List.drop_length, List.append_nil]
  have htarget : d.tree.walk fs.links [] (p.target m) = .ok (p.target m) := by
    refine walk_of_named ?_ hholds ?_
    · intro s hs
      rcases List.mem_append.mp hs with hs | hs
      · exact named_repoPath s hs
      · exact named_posixParts hskip s hs
    · rw [Place.target, List.drop_left]
  have hbelow : p.repoPath <+: p.target m := List.prefix_append _ _
  rw [isWithinDirectory, Exec.runOn_query, hbase, htarget]
  dsimp only
  rw [decide_eq_true hbelow]

/-- What a place holds after one more member. -/
theorem entryAfter_concat (hway : ∀ q, q <+: p.way m → fs.Room (p.entryAfter before) q) (q : Path) :
    p.entryAfter (before ++ [m]) q =
      if ¬ m.IsDir ∧ p.target m = q then some (.file m.content)
      else if q <+: p.way m then some .directory else p.entryAfter before q := by
  rw [Place.entryAfter, lastContent_concat]
  by_cases hfile : ¬ m.IsDir ∧ p.target m = q
  · rw [if_pos hfile, if_pos hfile]
  · rw [if_neg hfile, if_neg hfile]
    by_cases hq : q <+: p.way m
    · have hnone : p.lastContent before q = none := by
        by_contra hsome
        obtain ⟨content, hcontent⟩ := Option.ne_none_iff_exists'.mp hsome
        have hroom := hway q hq
        rw [FileSystem.Room, Place.entryAfter, hcontent] at hroom
        rcases hroom with h | h
        · cases h
        · cases h.1
      rw [hnone, if_pos hq]
      exact if_pos (.inr ⟨m, List.mem_append_right _ (List.mem_singleton_self m), hq⟩)
    · rw [if_neg hq, Place.entryAfter]
      cases p.lastContent before q with
      | some content => rfl
      | none =>
        have hiff : (∃ m' ∈ before ++ [m], q <+: p.way m') ↔ ∃ m' ∈ before, q <+: p.way m' := by
          simp only [List.mem_append, List.mem_singleton, or_and_right, exists_or, exists_eq_left,
            hq, or_false]
        simp only [hiff]

theorem room_of_holds (hholds : p.Holds before d.tree) (q : Path) :
    fs.Room d.tree.entry q ↔ fs.Room (p.entryAfter before) q := by
  rw [FileSystem.Room, FileSystem.Room, hholds q]

theorem target_ne_nil : p.target m ≠ [] := by
  rw [Place.target, Place.repoPath]
  simp

/-- The directory of a file is made, and its place stays as it was. -/
theorem mkdir_way (hway : ∀ q, q <+: p.way m → fs.Room (p.entryAfter before) q)
    (hfile : ¬ m.IsDir) (hholds : p.Holds before d.tree) :
    ∃ u, (mkdir fs (p.target m).dropLast).runOn d = (.ok (), { d with tree := u }) ∧
      u.entry (p.target m).dropLast = some .directory ∧
      u.entry (p.target m) = p.entryAfter before (p.target m) ∧
      ∀ q, u.entry q = if q <+: p.way m then some .directory else p.entryAfter before q := by
  have hdirectory : p.way m = (p.target m).dropLast := if_neg hfile
  obtain ⟨u, hrun, hentry⟩ := mkdir_ok fun q hq => (room_of_holds hholds q).mpr (hway q hq)
  rw [hdirectory] at hrun
  have hentry (q : Path) : u.entry q =
      if q <+: p.way m then some .directory else p.entryAfter before q := by
    rw [hentry q, hholds q]
  refine ⟨u, hrun, ?_, ?_, hentry⟩
  · rw [hentry, hdirectory, if_pos (List.prefix_refl _)]
  · rw [hentry, hdirectory, if_neg (not_prefix_dropLast target_ne_nil)]

theorem extractMember_ok (hpasses : p.Passes before m) (hwhole : m.Whole)
    (hholds : p.Holds before d.tree) :
    ∃ u, (extractMember fs m (p.target m)).runOn d = (.ok (), { d with
        tree := u
        extractedCount := d.extractedCount + if m.IsDir then 0 else 1 }) ∧
      p.Holds (before ++ [m]) u := by
  rw [extractMember]
  by_cases hdir : m.IsDir
  · have hway : p.way m = p.target m := if_pos hdir
    rw [if_pos hdir, if_pos hdir]
    obtain ⟨u, hrun, hentry⟩ := mkdir_ok fun q hq =>
      (room_of_holds hholds q).mpr (hpasses.way q (hway ▸ hq))
    refine ⟨u, hrun, fun q => ?_⟩
    rw [entryAfter_concat hpasses.way, if_neg fun h => h.1 hdir, hentry q, hholds q, hway]
  · obtain ⟨hopened, hfailure⟩ := hwhole.resolve_left hdir
    obtain ⟨u, hmkdir, hparent, htarget, hentry⟩ := mkdir_way hpasses.way hdir hholds
    have hroom : fs.FileRoom u.entry (p.target m) := by
      rw [FileSystem.FileRoom, htarget]
      exact hpasses.target hdir hopened
    obtain ⟨v, hopen, hempty, hframe⟩ := openWrite_ok (d := { d with tree := u }) hroom hparent
    obtain ⟨hcontent, hframe'⟩ := @entry_written _ v m.content ⟨[], hempty⟩
    rw [if_neg hdir, if_neg hdir, Exec.runOn_bind_ok hmkdir, openMember, hopened,
      Exec.runOn_bind_ok (Exec.runOn_pure _ _), Exec.runOn_bind_ok hopen]
    refine ⟨Disk.written v (p.target m) m.content, ?_, fun q => ?_⟩
    · rw [Exec.runOn_bind_ok (t := { d with tree := Disk.written v (p.target m) m.content })
        (by rw [copyfileobj, Exec.runOn_prim, hfailure]), Exec.runOn_prim]
    · rw [entryAfter_concat hpasses.way]
      by_cases hq : p.target m = q
      · rw [if_pos ⟨hdir, hq⟩, ← hq, hcontent]
      · rw [if_neg fun h => hq h.2, hframe' q (Ne.symm hq), hframe q (Ne.symm hq)]
        exact hentry q

/-- A member that passes and is not whole ends the extraction with `BadZipFile`. -/
theorem extractMember_badZipFile (hpasses : p.Passes before m) (hwhole : ¬ m.Whole)
    (hholds : p.Holds before d.tree) :
    ∃ text e, (extractMember fs m (p.target m)).runOn d = (.error (.badZipFile text), e) := by
  have hdir : ¬ m.IsDir := fun h => hwhole (.inl h)
  obtain ⟨u, hmkdir, hparent, htarget, _⟩ := mkdir_way hpasses.way hdir hholds
  rw [extractMember, if_neg hdir, Exec.runOn_bind_ok hmkdir, openMember]
  cases hopened : m.opened with
  | some failure =>
    cases failure with
    | badZipFile text => exact ⟨text, _, Exec.runOn_bind_error (Exec.runOn_throw _ _) _⟩
    | other => exact absurd hopened (hpasses.opened hdir)
  | none =>
    have hroom : fs.FileRoom u.entry (p.target m) := by
      rw [FileSystem.FileRoom, htarget]
      exact hpasses.target hdir hopened
    obtain ⟨v, hopen, _, _⟩ := openWrite_ok (d := { d with tree := u }) hroom hparent
    rw [Exec.runOn_bind_ok (Exec.runOn_pure _ _), Exec.runOn_bind_ok hopen]
    cases hfailure : m.failure with
    | some failure =>
      cases failure with
      | badZipFile text =>
        exact ⟨text, _, Exec.runOn_bind_error (copyfileobj_error hfailure) _⟩
      | other => exact absurd hfailure (hpasses.read hdir hopened)
    | none => exact absurd (.inr ⟨hopened, hfailure⟩) hwhole

/-- A member that does not pass raises something else. -/
theorem extractMember_other (hpasses : ¬ p.Passes before m) (hholds : p.Holds before d.tree) :
    ∃ e, (extractMember fs m (p.target m)).runOn d = (.error .other, e) := by
  rw [extractMember]
  by_cases hway : ∀ q, q <+: p.way m → fs.Room (p.entryAfter before) q
  · by_cases hdir : m.IsDir
    · exact absurd ⟨hway, absurd hdir, absurd hdir, absurd hdir⟩ hpasses
    obtain ⟨u, hmkdir, hparent, htarget, _⟩ := mkdir_way hway hdir hholds
    rw [if_neg hdir, Exec.runOn_bind_ok hmkdir, openMember]
    cases hopened : m.opened with
    | some failure =>
      cases failure with
      | badZipFile text =>
        refine absurd ⟨hway, ?_, ?_, ?_⟩ hpasses <;> rw [hopened] <;> nofun
      | other => exact ⟨_, Exec.runOn_bind_error (Exec.runOn_throw _ _) _⟩
    | none =>
      rw [Exec.runOn_bind_ok (Exec.runOn_pure _ _)]
      by_cases hroom : fs.FileRoom (p.entryAfter before) (p.target m)
      · have hroom' : fs.FileRoom u.entry (p.target m) := by
          rwa [FileSystem.FileRoom, htarget]
        obtain ⟨v, hopen, _, _⟩ := openWrite_ok (d := { d with tree := u }) hroom' hparent
        have hfailure : m.failure = some .other := by
          by_contra hread
          refine hpasses ⟨hway, fun _ => ?_, fun _ _ => hroom, fun _ _ => hread⟩
          rw [hopened]
          nofun
        rw [Exec.runOn_bind_ok hopen]
        exact ⟨_, Exec.runOn_bind_error (copyfileobj_error hfailure) _⟩
      · have hroom' : ¬ fs.FileRoom u.entry (p.target m) := by
          rwa [FileSystem.FileRoom, htarget]
        exact ⟨_, Exec.runOn_bind_error (openWrite_error (d := { d with tree := u }) hroom') _⟩
  · have hnot {q : Path} (hq : p.way m = q) :
        ¬ ∀ r, r <+: q → fs.Room d.tree.entry r :=
      fun hall => hway fun r hr => (room_of_holds hholds r).mp (hall r (hq ▸ hr))
    split_ifs with hdir
    · exact mkdir_error (hnot (if_pos hdir))
    · obtain ⟨e, he⟩ := mkdir_error (hnot (if_neg hdir))
      exact ⟨e, Exec.runOn_bind_error he _⟩

end Step

section Loop

def kept (maxMemberSize : ℕ) (members : List Member) : List Member :=
  members.filter fun m => skipReason m.filename m.fileSize maxMemberSize = none

def skipped (maxMemberSize : ℕ) (members : List Member) : List (List Char × SkipReason) :=
  members.filterMap fun m =>
    (skipReason m.filename m.fileSize maxMemberSize).map fun reason => (m.filename, reason)

variable {fs} {p : Place fs} {before : List Member} {maxMemberSize : ℕ} {d : Progress}

variable {m : Member}

theorem unzipMember_of_kept (hskip : skipReason m.filename m.fileSize maxMemberSize = none)
    (hholds : p.Holds before d.tree) :
    (unzipMember fs p.repoPath maxMemberSize m).runOn d =
      (extractMember fs m (p.target m)).runOn d := by
  have hwithin := isWithinDirectory_of_holds hskip hholds
  rw [Place.target] at hwithin
  unfold unzipMember
  dsimp only
  rw [hskip]
  dsimp only
  rw [Exec.runOn_bind_ok hwithin, if_pos rfl, Place.target]

theorem unzipMember_of_skipped {reason : SkipReason}
    (hskip : skipReason m.filename m.fileSize maxMemberSize = some reason) :
    (unzipMember fs p.repoPath maxMemberSize m).runOn d =
      (.ok ⟨⟩, { d with skippedFiles := d.skippedFiles ++ [(m.filename, reason)] }) := by
  unfold unzipMember
  dsimp only
  rw [hskip]
  rfl

/-- How the loop ends: every member was whole, or `BadZipFile` was raised, or something
else. -/
theorem forM_unzipMember (members : List Member) (hholds : p.Holds before d.tree) :
    let run := (members.forM (unzipMember fs p.repoPath maxMemberSize)).runOn d
    let rest := kept maxMemberSize members
    (p.Proceeds before rest ∧ (∀ m ∈ rest, m.Whole) ∧
        ∃ u, run = (.ok ⟨⟩, ⟨u, d.skippedFiles ++ skipped maxMemberSize members,
          d.extractedCount + rest.countP fun m => ¬ m.IsDir⟩) ∧ p.Holds (before ++ rest) u) ∨
      (p.Proceeds before rest ∧ (¬ ∀ m ∈ rest, m.Whole) ∧
        ∃ text e, run = (.error (.badZipFile text), e)) ∨
      ¬ p.Proceeds before rest ∧ ∃ e, run = (.error .other, e) := by
  dsimp only
  induction members generalizing before d with
  | nil =>
    refine .inl ⟨trivial, by simp [kept], d.tree, ?_, ?_⟩
    · rw [kept, List.filter_nil, List.countP_nil, skipped, List.filterMap_nil, List.append_nil]
      rfl
    · rwa [kept, List.filter_nil, List.append_nil]
  | cons m members ih =>
    rw [List.forM]
    cases hskip : skipReason m.filename m.fileSize maxMemberSize with
    | some reason =>
      have hkept : kept maxMemberSize (m :: members) = kept maxMemberSize members :=
        List.filter_cons_of_neg (by rw [hskip]; simp)
      have hskipped : skipped maxMemberSize (m :: members) =
          (m.filename, reason) :: skipped maxMemberSize members := by
        rw [skipped, List.filterMap_cons, hskip]
        rfl
      rw [Exec.runOn_bind_ok (unzipMember_of_skipped hskip), hkept, hskipped,
        List.append_cons d.skippedFiles _ (skipped maxMemberSize members)]
      exact ih (d := ⟨d.tree, d.skippedFiles ++ [(m.filename, reason)], d.extractedCount⟩) hholds
    | none =>
      have hkept : kept maxMemberSize (m :: members) = m :: kept maxMemberSize members :=
        List.filter_cons_of_pos (by rw [hskip]; simp)
      have hskipped : skipped maxMemberSize (m :: members) = skipped maxMemberSize members := by
        rw [skipped, List.filterMap_cons, hskip]
        rfl
      have hrun := unzipMember_of_kept hskip hholds
      rw [hkept, hskipped, Place.Proceeds, List.forall_mem_cons]
      by_cases hpasses : p.Passes before m
      · by_cases hwhole : m.Whole
        · obtain ⟨u, hu, hholds'⟩ := extractMember_ok hpasses hwhole hholds
          rw [Exec.runOn_bind_ok (hrun.trans hu)]
          rcases ih (d := ⟨u, d.skippedFiles, d.extractedCount + if m.IsDir then 0 else 1⟩)
            hholds' with ⟨hproceeds, hall, v, hv, hend⟩ | ⟨hproceeds, hall, hend⟩ | ⟨hnot, hend⟩
          · refine .inl ⟨⟨hpasses, fun _ => hproceeds⟩, ⟨hwhole, hall⟩, v, ?_, ?_⟩
            · rw [hv, List.countP_cons, Nat.add_assoc, Nat.add_comm (ite ..)]
              congr 4
              by_cases hdir : m.IsDir <;> simp [hdir]
            · rwa [List.append_cons]
          · exact .inr (.inl ⟨⟨hpasses, fun _ => hproceeds⟩, fun h => hall h.2, hend⟩)
          · exact .inr (.inr ⟨fun h => hnot (h.2 hwhole), hend⟩)
        · obtain ⟨text, e, he⟩ := extractMember_badZipFile hpasses hwhole hholds
          refine .inr (.inl ⟨⟨hpasses, fun h => absurd h hwhole⟩, fun h => hwhole h.1, text, e, ?_⟩)
          rw [Exec.runOn_bind_error (hrun.trans he)]
      · obtain ⟨e, he⟩ := extractMember_other hpasses hholds
        refine .inr (.inr ⟨fun h => hpasses h.1, e, ?_⟩)
        rw [Exec.runOn_bind_error (hrun.trans he)]

end Loop

section Whole

variable {fs} {p : Place fs} {maxMemberSize : ℕ}

/-- What a successful call has done. -/
structure Unpacked (p : Place fs) (maxMemberSize : ℕ) (members : List Member) (r : UnzipResult)
    (u : FileTree Bytes) : Prop where
  files : ∀ q, p.repoPath <+: q → ∀ content, u.entry q = some (.file content) ↔
    p.lastContent (kept maxMemberSize members) q = some content
  count : ∃ paths : List Path, paths.Nodup ∧ paths.length = r.extractedFileCount ∧
    ∀ q, q ∈ paths ↔ p.repoPath <+: q ∧ ∃ content, u.entry q = some (.file content)
  skipped : r.skippedFiles = skipped maxMemberSize members
  outside : ∀ q, ¬ p.repoPath <+: q → u.entry q = p.tree.entry q ∨
    p.tree.entry q = none ∧ u.entry q = some .directory ∧ q <+: p.repoPath

/-- The call returns a result; without success nothing of it remains below the source
directory, and with success that directory is exactly what the members say. -/
def Exact (p : Place fs) (sourceZip : Path) (source : Source) (maxMemberSize : ℕ) : Prop :=
  ∃ r e, (unzipProject fs p sourceZip source maxMemberSize).runOn ⟨p.tree, [], 0⟩ = (.ok r, e) ∧
    (r.success = false → ∀ q, p.repoPath <+: q → e.tree.entry q ≠ none →
      e.tree.entry q = p.tree.entry q) ∧
    (r.success = true → ∃ members, source = .zip (.ok members) ∧
      Unpacked p maxMemberSize members r e.tree)

/-- No file is extracted twice, and no other file is there. -/
structure Place.Sole (p : Place fs) (members : List Member) : Prop where
  nodup : ((members.filter fun m => ¬ m.IsDir).map p.target).Nodup
  covered : ∀ q content, p.repoPath <+: q → p.tree.entry q = some (.file content) →
    q ∈ (members.filter fun m => ¬ m.IsDir).map p.target

/-- The archive can be opened, nothing but `BadZipFile` ends the loop, and if it does not, no
file is extracted twice and no other file is there. -/
def Place.Harmless (p : Place fs) (maxMemberSize : ℕ) : Source → Prop
  | .missing | .notZip => True
  | .zip (.error e) => e ≠ .other
  | .zip (.ok members) =>
    p.Proceeds [] (kept maxMemberSize members) ∧
      ((∀ m ∈ kept maxMemberSize members, m.Whole) → p.Sole (kept maxMemberSize members))

theorem repoPath_ne_nil : p.repoPath ≠ [] := by simp [Place.repoPath]

theorem entryAfter_nil (q : Path) : p.entryAfter [] q =
    if q <+: p.repoPath then some .directory else p.tree.entry q := by
  rw [Place.entryAfter, Place.lastContent, List.filter_nil, List.getLast?_nil, Option.map_none]
  simp only [List.not_mem_nil, false_and, exists_false, or_false]

theorem mkdir_repoPath : ∃ u, (mkdir fs p.repoPath).runOn ⟨p.tree, [], 0⟩ = (.ok (), ⟨u, [], 0⟩) ∧
    p.Holds [] u := by
  obtain ⟨u, hrun, hentry⟩ := mkdir_ok (d := ⟨p.tree, [], 0⟩) p.ready
  exact ⟨u, hrun, fun q => (hentry q).trans (entryAfter_nil q).symm⟩

variable {q : Path} {r : UnzipResult} {e : Progress}

theorem lastContent_ne_none_iff {members : List Member} :
    p.lastContent members q ≠ none ↔ q ∈ (members.filter fun m => ¬ m.IsDir).map p.target := by
  rw [Place.lastContent, Ne, Option.map_eq_none_iff, List.getLast?_eq_none_iff,
    List.filter_eq_nil_iff]
  simp only [decide_eq_true_eq, List.mem_map, List.mem_filter, not_forall, not_not, exists_prop,
    and_assoc]

/-- What is a file stays one while members pass. -/
theorem file_entryAfter {before rest : List Member} (hproceeds : p.Proceeds before rest)
    (hwhole : ∀ m ∈ rest, m.Whole)
    (h : ∃ content, p.entryAfter before q = some (.file content)) :
    ∃ content, p.entryAfter (before ++ rest) q = some (.file content) := by
  induction rest generalizing before with
  | nil => rwa [List.append_nil]
  | cons m rest ih =>
    rw [List.append_cons]
    obtain ⟨hm, hwhole⟩ := List.forall_mem_cons.mp hwhole
    refine ih (hproceeds.2 hm) hwhole ?_
    obtain ⟨content, hcontent⟩ := h
    rw [entryAfter_concat hproceeds.1.way]
    split_ifs with hfile hq
    · exact ⟨m.content, rfl⟩
    · have hroom := hproceeds.1.way q hq
      rw [FileSystem.Room, hcontent] at hroom
      rcases hroom with h | h
      · cases h
      · cases h.1
    · exact ⟨content, hcontent⟩

variable {members : List Member} {u : FileTree Bytes}

/-- Without other files, the files are those of the members. -/
theorem file_iff_lastContent (hholds : p.Holds members u)
    (hcovered : ∀ content, p.tree.entry q = some (.file content) →
      q ∈ (members.filter fun m => ¬ m.IsDir).map p.target) (content : Bytes) :
    u.entry q = some (.file content) ↔ p.lastContent members q = some content := by
  rw [hholds q, Place.entryAfter]
  cases hlast : p.lastContent members q with
  | some c => simp
  | none =>
    simp only [reduceCtorEq, iff_false]
    intro h
    split_ifs at h
    · cases h
    · exact lastContent_ne_none_iff.mpr (hcovered content h) hlast

/-- Outside of the source directory only directories that lead to it are made. -/
theorem outside_of_holds (hholds : p.Holds members u) (hq : ¬ p.repoPath <+: q) :
    u.entry q = p.tree.entry q ∨
      p.tree.entry q = none ∧ u.entry q = some .directory ∧ q <+: p.repoPath := by
  have htarget (m : Member) (h : q <+: p.target m) : q <+: p.repoPath :=
    (List.prefix_or_prefix_of_prefix h (List.prefix_append _ _)).resolve_right hq
  have hlast : p.lastContent members q = none := by
    by_contra hsome
    obtain ⟨m, _, hm⟩ := List.mem_map.mp (lastContent_ne_none_iff.mp hsome)
    exact hq (hm ▸ List.prefix_append _ _)
  rw [hholds q, Place.entryAfter, hlast]
  dsimp only
  split_ifs with hdirectory
  · have hle : q <+: p.repoPath := by
      rcases hdirectory with hle | ⟨m, _, hway⟩
      · exact hle
      · unfold Place.way at hway
        split_ifs at hway
        · exact htarget m hway
        · exact htarget m (hway.trans (List.dropLast_prefix _))
    rcases p.ready q hle with h | h
    · exact .inl h.symm
    · exact .inr ⟨h.1, rfl, hle⟩
  · exact .inl rfl

/-- What a call without failures has done is what the members say, if and only if no file was
extracted twice and no other file is there. -/
theorem unpacked_iff (hproceeds : p.Proceeds [] (kept maxMemberSize members))
    (hwhole : ∀ m ∈ kept maxMemberSize members, m.Whole)
    (hholds : p.Holds (kept maxMemberSize members) u)
    (hcount : r.extractedFileCount = (kept maxMemberSize members).countP fun m => ¬ m.IsDir)
    (hskipped : r.skippedFiles = skipped maxMemberSize members) :
    Unpacked p maxMemberSize members r u ↔ p.Sole (kept maxMemberSize members) := by
  let targets := ((kept maxMemberSize members).filter fun m => ¬ m.IsDir).map p.target
  have hlength : targets.length = r.extractedFileCount := by
    rw [hcount, List.length_map, List.countP_eq_length_filter]
  have hbelow {q : Path} (hq : q ∈ targets) : p.repoPath <+: q := by
    obtain ⟨m, _, hm⟩ := List.mem_map.mp hq
    exact hm ▸ List.prefix_append _ _
  have hmem (hfiles : ∀ q, p.repoPath <+: q → ∀ content, u.entry q = some (.file content) ↔
      p.lastContent (kept maxMemberSize members) q = some content) (q : Path) :
      q ∈ targets ↔ p.repoPath <+: q ∧ ∃ content, u.entry q = some (.file content) := by
    constructor
    · intro hq
      obtain ⟨content, hcontent⟩ := Option.ne_none_iff_exists'.mp (lastContent_ne_none_iff.mpr hq)
      exact ⟨hbelow hq, content, (hfiles q (hbelow hq) content).mpr hcontent⟩
    · rintro ⟨hq, content, hcontent⟩
      rw [hfiles q hq] at hcontent
      exact lastContent_ne_none_iff.mp (by rw [hcontent]; nofun)
  constructor
  · intro h
    obtain ⟨paths, hnodup, hpaths, hiff⟩ := h.count
    refine ⟨?_, fun q content hq hfile => ?_⟩
    · have hperm : targets.dedup.Perm paths := by
        rw [List.perm_ext_iff_of_nodup targets.nodup_dedup hnodup]
        intro q
        rw [List.mem_dedup, hmem h.files, hiff]
      have heq : targets.dedup = targets := by
        apply targets.dedup_sublist.eq_of_length
        rw [hperm.length_eq, hpaths, hlength]
      have hunique := targets.nodup_dedup
      rwa [heq] at hunique
    · have hfirst : p.entryAfter [] q = some (.file content) := by
        rw [entryAfter_nil, if_neg, hfile]
        intro hle
        rcases p.ready q hle with h | h
        · rw [hfile] at h
          cases h
        · rw [hfile] at h
          cases h.1
      obtain ⟨c, hc⟩ := file_entryAfter hproceeds hwhole ⟨content, hfirst⟩
      rw [List.nil_append, ← hholds q] at hc
      exact (hmem h.files q).mpr ⟨hq, c, hc⟩
  · intro h
    have hfiles : ∀ q, p.repoPath <+: q → ∀ content, u.entry q = some (.file content) ↔
        p.lastContent (kept maxMemberSize members) q = some content :=
      fun q hq => file_iff_lastContent hholds fun content => h.covered q content hq
    exact ⟨hfiles, ⟨targets, h.nodup, hlength, hmem hfiles⟩, hskipped,
      fun q hq => outside_of_holds hholds hq⟩

variable {sourceZip : Path} {infolist : Except Failure (List Member)}

theorem not_exact_of_other
    (hmkdir : (mkdir fs p.repoPath).runOn ⟨p.tree, [], 0⟩ = (.ok (), ⟨u, [], 0⟩))
    (h : (unpack fs p sourceZip maxMemberSize infolist).runOn ⟨u, [], 0⟩ = (.error .other, e)) :
    ¬ Exact p sourceZip (.zip infolist) maxMemberSize := by
  rintro ⟨r, e', hrun, _⟩
  unfold unzipProject at hrun
  dsimp only at hrun
  rw [Exec.runOn_bind_ok hmkdir, Exec.runOn_tryCatch_error h] at hrun
  cases hrun

theorem exact_of_badZipFile {text : String}
    (hmkdir : (mkdir fs p.repoPath).runOn ⟨p.tree, [], 0⟩ = (.ok (), ⟨u, [], 0⟩))
    (h : (unpack fs p sourceZip maxMemberSize infolist).runOn ⟨u, [], 0⟩ =
      (.error (.badZipFile text), e)) :
    Exact p sourceZip (.zip infolist) maxMemberSize := by
  unfold Exact unzipProject
  dsimp only
  rw [Exec.runOn_bind_ok hmkdir, Exec.runOn_tryCatch_error h]
  refine ⟨_, _, rfl, fun _ q hq hsome => ?_, nofun⟩
  exact absurd (FileTree.entry_rmtree_nil repoPath_ne_nil hq) hsome

theorem exact_iff_of_ok {members : List Member} (hsuccess : r.success = true)
    (hmkdir : (mkdir fs p.repoPath).runOn ⟨p.tree, [], 0⟩ = (.ok (), ⟨u, [], 0⟩))
    (h : (unpack fs p sourceZip maxMemberSize (.ok members)).runOn ⟨u, [], 0⟩ = (.ok r, e)) :
    Exact p sourceZip (.zip (.ok members)) maxMemberSize ↔
      Unpacked p maxMemberSize members r e.tree := by
  unfold Exact unzipProject
  dsimp only
  rw [Exec.runOn_bind_ok hmkdir, Exec.runOn_tryCatch_ok h]
  constructor
  · rintro ⟨r', e', heq, _, hunpacked⟩
    cases heq
    obtain ⟨members', heq, hunpacked⟩ := hunpacked hsuccess
    cases heq
    exact hunpacked
  · intro hunpacked
    refine ⟨r, e, rfl, fun hfailed => ?_, fun _ => ⟨members, rfl, hunpacked⟩⟩
    rw [hsuccess] at hfailed
    cases hfailed

/-- Unpacking a project is total and exact if and only if the archive is harmless. -/
theorem unzipProject_exact_iff (p : Place fs) (sourceZip : Path) (source : Source)
    (maxMemberSize : ℕ) :
    Exact p sourceZip source maxMemberSize ↔ p.Harmless maxMemberSize source := by
  obtain ⟨u, hmkdir, hholds⟩ := mkdir_repoPath (p := p)
  cases source with
  | missing => exact iff_of_true ⟨_, _, rfl, fun _ _ _ _ => rfl, nofun⟩ trivial
  | notZip => exact iff_of_true ⟨_, _, rfl, fun _ _ _ _ => rfl, nofun⟩ trivial
  | zip infolist =>
    cases infolist with
    | error e =>
      have hrun : (unpack fs p sourceZip maxMemberSize (.error e)).runOn ⟨u, [], 0⟩ =
          (.error e, ⟨u, [], 0⟩) := rfl
      cases e with
      | badZipFile text => exact iff_of_true (exact_of_badZipFile hmkdir hrun) nofun
      | other => exact iff_of_false (not_exact_of_other hmkdir hrun) fun h => h rfl
    | ok members =>
      have hrun : (unpack fs p sourceZip maxMemberSize (.ok members)).runOn ⟨u, [], 0⟩ =
          ((members.forM (unzipMember fs p.repoPath maxMemberSize)) >>= fun _ => _).runOn
            ⟨u, [], 0⟩ := Exec.runOn_bind_ok (Exec.runOn_query _ _) _
      have hmembers := @forM_unzipMember fs p [] maxMemberSize ⟨u, [], 0⟩ members hholds
      rcases hmembers with
        ⟨hproceeds, hwhole, v, hv, hend⟩ | ⟨hproceeds, hwhole, text, e, he⟩ | ⟨hnot, e, he⟩
      · rw [Exec.runOn_bind_ok hv, Exec.runOn_query] at hrun
        rw [exact_iff_of_ok rfl hmkdir hrun, unpacked_iff hproceeds hwhole hend _ _]
        · exact ⟨fun h => ⟨hproceeds, fun _ => h⟩, fun h => h.2 hwhole⟩
        · exact Nat.zero_add _
        · rfl
      · rw [Exec.runOn_bind_error he] at hrun
        exact iff_of_true (exact_of_badZipFile hmkdir hrun)
          ⟨hproceeds, fun h => absurd h hwhole⟩
      · rw [Exec.runOn_bind_error he] at hrun
        exact iff_of_false (not_exact_of_other hmkdir hrun) fun h => hnot h.1

end Whole

def openFileSystem : FileSystem := ⟨fun _ => true, 0⟩

def blankPlace : Place openFileSystem where
  outputRoot := []
  taskId := "task".toList
  tree := Disk.blankTree
  named := by
    intro s hs
    rw [List.nil_append, List.mem_singleton] at hs
    rw [hs]
    unfold FileTree.Named
    decide
  ready q _ := by
    by_cases hq : q = []
    · exact .inl (if_pos hq)
    · exact .inr ⟨if_neg hq, rfl⟩
  unlinked q _ := by
    rw [FileTree.linkAt]
    by_cases hq : q = []
    · rw [hq]
      rfl
    · have hnone : Disk.blankTree.entry q = none := if_neg hq
      rw [hnone]

/-- The members `a` and `a/b`. -/
def clashingMembers : List Member :=
  ["a", "a/b"].map fun name => ⟨name.toList, 1, none, [0], none⟩

theorem unzipProject_raises : ¬ ∀ (fs : FileSystem) (p : Place fs) (sourceZip : Path)
    (source : Source) (maxMemberSize : ℕ), Exact p sourceZip source maxMemberSize := by
  intro h
  obtain ⟨r, e, hrun, _⟩ := h openFileSystem blankPlace [] (.zip (.ok clashingMembers))
    defaultMaxExtractSizeBytes
  have hraised : ((unzipProject openFileSystem blankPlace [] (.zip (.ok clashingMembers))
      defaultMaxExtractSizeBytes).runOn ⟨blankPlace.tree, [], 0⟩).1 = .error .other := by
    decide +kernel
  rw [hrun] at hraised
  cases hraised

end CodeResearch.Artifacts.Unzip
