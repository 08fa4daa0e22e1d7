import CodeResearch.Artifacts.Publish
import Mathlib

/-!
# Archives of result directories

`_publish_directory` writes the regular files of a directory to a zip archive and
publishes the archive. `extract_validated_archive` checks an archive against the limits
of uploads and extracts it. The compressor and the format of an archive come from
outside, with the promise that what was written is read back.
-/
namespace CodeResearch.Artifacts

/-- The type of a member in its external attributes. -/
inductive FileType
  | regular | directory | link | character | block | fifo
  deriving DecidableEq

/-- An entry of `infolist()` with what it decompresses to. -/
structure ZipInfo where
  filename : List Char
  fileSize : ℕ
  compressSize : ℕ
  fileType : FileType
  content : Bytes
  deriving DecidableEq

abbrev ZipEntry := List Char × Bytes

/-- The member that an entry is read back as. -/
def ZipEntry.info (compressSize : Bytes → ℕ) (entry : ZipEntry) : ZipInfo where
  filename := entry.1
  fileSize := entry.2.length
  compressSize := compressSize entry.2
  fileType := .regular
  content := entry.2

/-- `zipfile`: regular files that were written are read back. -/
structure Zip where
  compressSize : Bytes → ℕ
  write : List ZipEntry → Except Exc Bytes
  infolist : Bytes → Option (List ZipInfo)
  infolist_write : ∀ entries bytes, write entries = .ok bytes →
    infolist bytes = some (entries.map (ZipEntry.info compressSize))

structure ArchiveLimits where
  compressedBytes : ℕ := 100 * 1024 * 1024
  extractedBytes : ℕ := 2 * 1024 * 1024 * 1024
  compressionRatio : ℕ := 100
  fileCount : ℕ := 50000
  directoryDepth : ℕ := 32
  filenameBytes : ℕ := 255
  nestedArchivesAllowed : Bool := false

/-- `PurePosixPath(name).parts`. -/
def posixParts (name : List Char) : List Segment :=
  (if name.head? = some '/' then [['/']] else []) ++
    (name.splitOn '/').filter fun s => s ≠ [] ∧ s ≠ ['.']

/-- `PurePosixPath(name).suffix` of the last part, with its dot. -/
def posixSuffix (name : Segment) : Segment :=
  let extension := (name.reverse.takeWhile (· ≠ '.')).reverse
  let stem := name.take (name.length - extension.length - 1)
  if '.' ∈ name ∧ extension ≠ [] ∧ stem ≠ [] then '.' :: extension else []

/-- `len(part.encode("utf-8"))`. -/
def encodedLength (part : Segment) : ℕ := (part.map Char.utf8Size).sum

def nestedArchiveSuffixes : List Segment :=
  [".zip", ".tar", ".tgz", ".gz", ".bz2", ".xz", ".7z", ".rar"].map String.toList

def NestedArchive (parts : List Segment) : Prop :=
  (posixSuffix (parts.getLastD [])).map Char.toLower ∈ nestedArchiveSuffixes

instance (parts : List Segment) : Decidable (NestedArchive parts) :=
  inferInstanceAs (Decidable (_ ∈ _))

/-- The loop of `validate_archive`, with the size that its members have so far. -/
def validateMember (limits : ArchiveLimits) (total : ℕ) (member : ZipInfo) : Except Exc ℕ := do
  let parts := posixParts member.filename
  ensure (¬ (member.filename.head? = some '/' ∨ ['.', '.'] ∈ parts ∨ '\x00' ∈ member.filename))
    (.artifactSecurity "archive_path_escape")
  ensure (parts.length ≤ limits.directoryDepth) (.artifactSecurity "archive_depth_exceeded")
  ensure (∀ part ∈ parts, encodedLength part ≤ limits.filenameBytes)
    (.artifactSecurity "archive_filename_too_long")
  ensure (member.fileType ∉ [FileType.link, .character, .block, .fifo])
    (.artifactSecurity "archive_special_file_rejected")
  ensure (total + member.fileSize ≤ limits.extractedBytes)
    (.artifactSecurity "archive_extracted_size_exceeded")
  ensure (member.fileSize ≤ limits.compressionRatio * max member.compressSize 1)
    (.artifactSecurity "archive_compression_ratio_exceeded")
  ensure (limits.nestedArchivesAllowed ∨ ¬ NestedArchive parts)
    (.artifactSecurity "nested_archive_rejected")
  return total + member.fileSize

/-- `validate_archive`, with the members that it read. -/
def validateArchive (zip : Zip) (limits : ArchiveLimits) (archive : Bytes) :
    Except Exc (List ZipInfo) := do
  ensure (archive.length ≤ limits.compressedBytes)
    (.artifactSecurity "archive_compressed_size_exceeded")
  let members ← orError (.artifactSecurity "archive_invalid") (zip.infolist archive)
  ensure (members.length ≤ limits.fileCount) (.artifactSecurity "archive_file_count_exceeded")
  let _ ← members.foldlM (validateMember limits) 0
  return members

/-- The files and the directories below the root of an extraction. -/
structure Extraction where
  files : Files Bytes
  directories : List Path

/-- `mkdir(parents=True, exist_ok=True)`. -/
def Extraction.mkdir (x : Extraction) (p : Path) : Except Exc Extraction :=
  if ∃ q ∈ p.inits, (x.files q).isSome then .error .os
  else .ok { x with directories := p.inits ++ x.directories }

local instance lawfulPath : LawfulBEq Path := inferInstance

/-- A new file with its content, opened in mode `xb`. -/
def Extraction.create (x : Extraction) (p : Path) (content : Bytes) : Except Exc Extraction :=
  if (x.files p).isSome ∨ p ∈ x.directories then .error .os
  else .ok { x with files := x.files.write p content }

/-- The loop of `extract_validated_archive`. -/
def extractMember (destination : Path) (x : Extraction) (member : ZipInfo) :
    Except Exc Extraction := do
  let target := if member.filename.head? = some '/' then Path.join [] member.filename
    else destination.join member.filename
  ensure (destination <+: target) (.artifactSecurity "archive_path_escape")
  if member.filename.getLast? = some '/' then x.mkdir target
  else
    let x ← x.mkdir target.dropLast
    x.create target member.content

/-- `extract_validated_archive` to a new destination. -/
def extractValidatedArchive (zip : Zip) (limits : ArchiveLimits) (archive : Bytes)
    (destination : Path) : Except Exc Extraction := do
  let members ← validateArchive zip limits archive
  members.foldlM (extractMember destination) ⟨fun _ => none, destination.inits⟩

/-- What `rglob` finds. -/
inductive Node
  | file (content : Bytes) | directory | symlink | special
  deriving DecidableEq

/-- A name of a file system. -/
structure FileName (s : Segment) : Prop extends s.Plain where
  nul : '\x00' ∉ s

structure DirectoryTree where
  nodes : List (Path × Node)
  nodup : (nodes.map Prod.fst).Nodup
  proper : ∀ n ∈ nodes, n.1 ≠ []
  named : ∀ n ∈ nodes, ∀ s ∈ n.1, FileName s
  closed : ∀ n ∈ nodes, n.1.dropLast = [] ∨ (n.1.dropLast, Node.directory) ∈ nodes

def pathBefore (p q : Path) : Bool :=
  List.lex p q fun s t => List.lex s t fun c d => decide (c.toNat < d.toNat)

/-- `sorted(directory.rglob("*"))`. -/
def DirectoryTree.sorted (tree : DirectoryTree) : List (Path × Node) :=
  tree.nodes.insertionSort fun a b => pathBefore b.1 a.1 = false

/-- `as_posix`. -/
def asPosix (p : Path) : List Char := ['/'].intercalate p

/-- The calls of `_publish_directory` of its own. -/
inductive DirectorySite
  | checkpoint | makeTemporary | checkpointIfDue (i : ℕ) | writeEntry (i : ℕ)
  deriving DecidableEq

/-- The loop over the nodes, from its round `i` on. -/
def archiveEntries (env : Env DirectorySite) : ℕ → List (Path × Node) →
    Exec Exc World (List ZipEntry)
  | _, [] => return []
  | i, (path, node) :: rest => do
    env.check (.checkpointIfDue i)
    match node with
    | .symlink => throw (.controlPlane "result_symlink_rejected")
    | .file content => do
      env.check (.writeEntry i)
      let entries ← archiveEntries env (i + 1) rest
      return (asPosix path, content) :: entries
    | .directory | .special => archiveEntries env (i + 1) rest

/-- The arguments of `_publish_directory`, the identifiers it draws and the pieces in
which it reads its archive. -/
structure DirectoryRequest where
  workspaceId : String
  projectId : Option String
  kind : ArtifactKind
  directory : Option DirectoryTree
  chunks : Bytes → List Chunk
  flatten_chunks : ∀ bytes, ((chunks bytes).map Subtype.val).flatten = bytes
  artifact : Uuid
  staging : Uuid

def zipSuffix : Suffix := ⟨".zip", by decide, by decide⟩

def DirectoryRequest.publishRequest (req : DirectoryRequest) (archive : Bytes) :
    PublishRequest where
  workspaceId := req.workspaceId
  projectId := req.projectId
  kind := req.kind
  suffix := zipSuffix
  source := req.chunks archive
  artifact := req.artifact
  staging := req.staging

/-- `_publish_directory`. -/
def publishDirectory (cfg : StoreConfig) (zip : Zip) (env : Env Site)
    (directoryEnv : Env DirectorySite) (req : DirectoryRequest) : Exec Exc World String := do
  directoryEnv.check .checkpoint
  match req.directory with
  | none => throw (.controlPlane "result_directory_missing")
  | some tree => do
    directoryEnv.check .makeTemporary
    let entries ← archiveEntries directoryEnv 0 tree.sorted
    let archive ← Exec.prim fun w => (zip.write entries, w)
    publishFile cfg env (req.publishRequest archive)

end CodeResearch.Artifacts
