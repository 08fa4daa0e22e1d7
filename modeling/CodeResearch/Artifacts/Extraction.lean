import CodeResearch.Artifacts.ResultArchive
import CodeResearch.Library.FileTree

/-!
# Extracting an archive to a disk

`extract_validated_archive` on a tree with directories and links, where every call may fail:
it makes its destination, writes the members below it, and removes it again if a member
fails.
-/
namespace CodeResearch.Artifacts.Disk

/-- The tree, and how many calls were made on it. -/
structure Drive where
  tree : FileTree Bytes
  calls : ℕ

/-- What each call raises instead of being performed, what a copy that breaks off leaves, how
many links a path may follow, what cannot be removed, and the working directory. -/
structure DriveEnv where
  fault : ℕ → Option OsError
  torn : ℕ → Bytes
  links : ℕ
  kept : List Path
  cwd : Path
  cwd_named : ∀ s ∈ cwd, FileTree.Named s

variable (env : DriveEnv)

def call (f : FileTree Bytes → Except OsError (FileTree Bytes)) : Exec OsError Drive Unit :=
  Exec.prim fun d =>
    match env.fault d.calls with
    | some e => (.error e, ⟨d.tree, d.calls + 1⟩)
    | none =>
      match f d.tree with
      | .ok t => (.ok (), ⟨t, d.calls + 1⟩)
      | .error e => (.error e, ⟨d.tree, d.calls + 1⟩)

/-- Every `OSError`, seen from outside. -/
def raising {α : Type} (x : Exec OsError Drive α) : Exec Exc Drive α :=
  x.handle fun _ => throw .os

/-- `if not exist_ok or not self.is_dir(): raise`. -/
def standing (existOk : Bool) (p : Path) : Exec OsError Drive Unit :=
  Exec.query fun d =>
    ensure (existOk ∧ d.tree.entry p = some .directory) .failed

/-- `mkdir(parents=False)`. -/
def mkdirOnce (existOk : Bool) (p : Path) : Exec OsError Drive Unit :=
  (call env fun t => t.mkdir p).handle fun e =>
    match e with
    | .notFound => throw .notFound
    | .failed => standing existOk p

/-- `mkdir(parents=True)`, for the names of a path from the last one on. -/
def mkdirParents : Bool → List Segment → Exec OsError Drive Unit
  | existOk, [] => mkdirOnce env existOk []
  | existOk, s :: names =>
    (call env fun t => t.mkdir (s :: names).reverse).handle fun e =>
      match e with
      | .notFound => do
        mkdirParents true names
        mkdirOnce env existOk (s :: names).reverse
      | .failed => standing existOk (s :: names).reverse

def written (t : FileTree Bytes) (p : Path) (content : Bytes) : FileTree Bytes :=
  match t.write p content with
  | .ok u => u
  | .error _ => t

/-- `shutil.copyfileobj`, which may break off. -/
def copyfileobj (p : Path) (content : Bytes) : Exec OsError Drive Unit :=
  Exec.prim fun d =>
    match env.fault d.calls with
    | some e => (.error e, ⟨written d.tree p (env.torn d.calls), d.calls + 1⟩)
    | none => (.ok (), ⟨written d.tree p content, d.calls + 1⟩)

/-- `(destination_path / filename).resolve()`. -/
def resolveMember (destination : Path) (filename : List Char) : Exec OsError Drive Path :=
  Exec.query fun d => d.tree.walk env.links []
    (if filename.head? = some '/' then filename.splitOn '/'
      else destination ++ filename.splitOn '/')

/-- The loop of `extract_validated_archive`. -/
def extractMember (destination : Path) (member : ZipInfo) : Exec Exc Drive PUnit := do
  let target ← raising (resolveMember env destination member.filename)
  Exec.check (destination <+: target) (.artifactSecurity "archive_path_escape")
  if member.filename.getLast? = some '/' then raising (mkdirParents env true target.reverse)
  else do
    raising (mkdirParents env true target.dropLast.reverse)
    raising (call env .ok)
    raising (call env fun t => t.create target [])
    raising (copyfileobj env target member.content)

/-- `Path(destination).resolve()`. -/
def resolveDestination (destination : List Char) : Exec OsError Drive Path :=
  Exec.query fun d => d.tree.walk env.links
    (if destination.head? = some '/' then [] else env.cwd) (destination.splitOn '/')

/-- What is done after the destination was made. -/
def extractMembers (zip : Zip) (archive : Bytes) (destination : Path) : Exec Exc Drive PUnit := do
  raising (call env .ok)
  let members ← Exec.query fun _ => orError .other (zip.infolist archive)
  members.forM (extractMember env destination)

/-- `extract_validated_archive`. -/
def extractValidatedArchive (zip : Zip) (limits : ArchiveLimits) (archive : Bytes)
    (destination : List Char) : Exec Exc Drive PUnit := do
  let _ ← Exec.query fun _ => validateArchive zip limits archive
  let destinationPath ← raising (resolveDestination env destination)
  raising (mkdirParents env false destinationPath.reverse)
  tryCatch (extractMembers env zip archive destinationPath) fun e => do
    Exec.prim fun d => (.ok (), ⟨d.tree.rmtree env.kept destinationPath, d.calls⟩)
    throw e

variable {Q : Unit → Drive → Prop} {R : OsError → Drive → Prop}

section Calls

variable {env} {d : Drive} {p q : Path}

theorem call_ends {f : FileTree Bytes → Except OsError (FileTree Bytes)}
    (hok : ∀ t, f d.tree = .ok t → Q () ⟨t, d.calls + 1⟩) (herror : ∀ e, R e ⟨d.tree, d.calls + 1⟩)
    : (call env f).Ends d Q R := by
  cases hfault : env.fault d.calls with
  | some e => exact Exec.ends_of_error (by rw [call, Exec.runOn_prim, hfault]) (herror e)
  | none =>
    cases hf : f d.tree with
    | ok t => exact Exec.ends_of_ok (by rw [call, Exec.runOn_prim, hfault, hf]) (hok t hf)
    | error e => exact Exec.ends_of_error (by rw [call, Exec.runOn_prim, hfault, hf]) (herror e)

/-- What making directories on the way to `p` may change. -/
def Makes (t u : FileTree Bytes) (p : Path) : Prop :=
  ∀ q, u.entry q = t.entry q ∨
    t.entry q = none ∧ u.entry q = some .directory ∧ q <+: p

theorem Makes.refl (t : FileTree Bytes) (p : Path) : Makes t t p := fun _ => .inl rfl

variable {t u : FileTree Bytes}

theorem Makes.trans {v : FileTree Bytes} (h : Makes t u p) (h' : Makes u v q)
    (hpq : p <+: q) : Makes t v q := by
  intro r
  rcases h r with heq | ⟨hnone, hdirectory, hstart⟩
  · rcases h' r with heq' | ⟨hnone', hdirectory', hstart'⟩
    · exact .inl (heq'.trans heq)
    · exact .inr ⟨heq ▸ hnone', hdirectory', hstart'⟩
  · rcases h' r with heq' | ⟨hnone', _, _⟩
    · exact .inr ⟨hnone, heq'.trans hdirectory, hstart.trans hpq⟩
    · rw [hdirectory] at hnone'
      cases hnone'

theorem makes_of_added (h : t.Added u p .directory) : Makes t u p := by
  intro q
  by_cases hq : q = p
  · rw [hq]
    exact .inr ⟨h.free, h.entry, List.prefix_refl p⟩
  · exact .inl (h.frame q hq)

/-- How making the directory `p` ends: it is there, or it is as it was. -/
def Made (existOk : Bool) (t : FileTree Bytes) (p : Path) (x : Exec OsError Drive Unit)
    (d : Drive) : Prop :=
  x.Ends d
    (fun _ e => Makes t e.tree p ∧ e.tree.entry p = some .directory ∧
      (existOk = false → t.entry p = none))
    fun _ e => Makes t e.tree p ∧ e.tree.entry p = t.entry p

variable {existOk : Bool}

theorem standing_ends (h : Makes t d.tree p)
    (hp : d.tree.entry p = t.entry p) : Made existOk t p (standing existOk p) d := by
  by_cases hc : existOk ∧ d.tree.entry p = some .directory
  · refine Exec.ends_of_ok (a := ()) (t := d) ?_ ⟨h, hc.2, ?_⟩
    · rw [standing, Exec.runOn_query, ensure_pos hc]
    · rw [hc.1]
      nofun
  · refine Exec.ends_of_error (e := .failed) (t := d) ?_ ⟨h, hp⟩
    rw [standing, Exec.runOn_query, ensure_neg hc]

theorem mkdirOnce_ends (h : Makes t d.tree q) (hqp : q <+: p)
    (hp : d.tree.entry p = t.entry p) : Made existOk t p (mkdirOnce env existOk p) d := by
  have hmakes : Makes t d.tree p := h.trans (.refl d.tree p) hqp
  apply Exec.Ends.handle (R := fun _ e => e.tree = d.tree)
  · apply call_ends
    · intro u hu
      have hadded := FileTree.added_of_mkdir hu
      exact ⟨h.trans (makes_of_added hadded) hqp, hadded.entry, fun _ => hp ▸ hadded.free⟩
    · exact fun _ => rfl
  · rintro e f hf
    cases e with
    | notFound => exact Exec.ends_throw ⟨hf ▸ hmakes, hf ▸ hp⟩
    | failed => exact standing_ends (hf ▸ hmakes) (hf ▸ hp)

theorem Makes.entry_of_not_below (h : Makes t u p) (hq : ¬ q <+: p) : u.entry q = t.entry q := by
  rcases h q with heq | ⟨_, _, hstart⟩
  · exact heq
  · exact absurd hstart hq

theorem mkdirParents_ends (existOk : Bool) (names : List Segment) (d : Drive) :
    Made existOk d.tree names.reverse (mkdirParents env existOk names) d := by
  induction names generalizing existOk d with
  | nil => exact mkdirOnce_ends (.refl d.tree []) (List.prefix_refl _) rfl
  | cons s names ih =>
    have hshort : ¬ (s :: names).reverse <+: names.reverse := by
      intro hstart
      have hle := hstart.length_le
      rw [List.length_reverse, List.length_reverse, List.length_cons] at hle
      omega
    have hlong : names.reverse <+: (s :: names).reverse := by
      rw [List.reverse_cons]
      exact List.prefix_append _ _
    rw [mkdirParents]
    apply Exec.Ends.handle (R := fun _ e => e.tree = d.tree)
    · apply call_ends
      · intro u hu
        have hadded := FileTree.added_of_mkdir hu
        exact ⟨makes_of_added hadded, hadded.entry, fun _ => hadded.free⟩
      · exact fun _ => rfl
    · intro e f hf
      cases e with
      | notFound =>
        rw [← hf]
        apply Exec.Ends.bind (Q := fun _ e => Makes f.tree e.tree names.reverse)
        · apply (ih true f).mono
          · exact fun _ _ h => h.1
          · intro _ e h
            exact ⟨h.1.trans (.refl _ _) hlong, h.1.entry_of_not_below hshort⟩
        · intro _ e he
          exact mkdirOnce_ends he hlong (he.entry_of_not_below hshort)
      | failed => exact standing_ends (hf ▸ .refl _ _) (by rw [hf])

end Calls

section Destination

variable {env} {destination : Path} {t : FileTree Bytes}

/-- A tree that may differ from `t` below the destination only, without links there. -/
structure Grown (destination : Path) (t u : FileTree Bytes) : Prop where
  directory : u.entry destination = some .directory
  frame : ∀ q, ¬ (destination <+: q ∧ q ≠ destination) → u.entry q = t.entry q
  links : ∀ q, destination <+: q → u.linkAt q = none

variable {u : FileTree Bytes} {d : Drive} {limits : ArchiveLimits} {p : Path}

variable {names : Path} {member : ZipInfo} {v : FileTree Bytes} {content : Bytes}
  {members : List ZipInfo}

theorem Grown.linkAt (h : Grown destination t u) {front : Path}
    (hfront : front <+: destination ++ names) : u.linkAt front = none := by
  rcases List.prefix_or_prefix_of_prefix hfront (List.prefix_append destination names) with
    hstart | hstart
  · by_cases heq : front = destination
    · exact h.links front (heq ▸ List.prefix_refl _)
    · apply FileTree.linkAt_directory
      exact u.directory_of_prefix hstart heq (by rw [h.directory]; nofun)
  · exact h.links front hstart

/-- A member that was checked is resolved to a place below the destination. -/
theorem resolveMember_ends
    (hnamed : ∀ s ∈ destination, FileTree.Named s) (hfits : MemberFits limits member)
    (h : Grown destination t d.tree) :
    (resolveMember env destination member.filename).runOn d =
      (.ok (destination ++ posixParts member.filename), d) := by
  have hcontained := hfits.contained
  have hhead : ¬ member.filename.head? = some '/' := fun h => hcontained (.inl h)
  have hparts : posixParts member.filename =
      (member.filename.splitOn '/').filter fun s => s ≠ [] ∧ s ≠ ['.'] := by
    rw [posixParts, if_neg hhead, List.nil_append]
  have hfilter : (destination ++ member.filename.splitOn '/').filter
      (fun s => s ≠ [] ∧ s ≠ ['.']) = destination ++ posixParts member.filename := by
    rw [List.filter_append, hparts, List.filter_eq_self.mpr]
    intro s hs
    rw [decide_eq_true_eq]
    exact ⟨(hnamed s hs).1, (hnamed s hs).2.1⟩
  have hdots : ∀ s ∈ destination ++ member.filename.splitOn '/', s ≠ ['.', '.'] := by
    intro s hs
    rcases List.mem_append.mp hs with hs | hs
    · exact (hnamed s hs).2.2
    · rintro rfl
      refine hcontained (.inr (.inl ?_))
      rw [hparts, List.mem_filter]
      exact ⟨hs, by decide⟩
  rw [resolveMember, Exec.runOn_query, if_neg hhead, FileTree.walk_eq hdots, hfilter,
    List.nil_append]
  intro front hfront
  rw [hfilter] at hfront
  exact h.linkAt hfront

/-- Directories that are made on the way to a place below the destination are below it. -/
theorem Grown.makes (h : Grown destination t u)
    (hmakes : Makes u v p) (hp : p <+: destination ++ names) : Grown destination t v := by
  have hsame : ∀ q, ¬ (destination <+: q ∧ q ≠ destination) → v.entry q = u.entry q := by
    intro q hq
    rcases hmakes q with heq | ⟨hnone, _, hstart⟩
    · exact heq
    · exfalso
      rcases List.prefix_or_prefix_of_prefix (hstart.trans hp)
        (List.prefix_append destination names) with hqd | hdq
      · have hdirectory := u.none_of_prefix hqd hnone
        rw [h.directory] at hdirectory
        cases hdirectory
      · by_cases heq : q = destination
        · rw [heq, h.directory] at hnone
          cases hnone
        · exact hq ⟨hdq, heq⟩
  refine ⟨?_, fun q hq => (hsame q hq).trans (h.frame q hq), fun q hq => ?_⟩
  · rw [hsame destination fun hd => hd.2 rfl]
    exact h.directory
  · rcases hmakes q with heq | ⟨_, hdirectory, _⟩
    · have hlink := h.links q hq
      rwa [FileTree.linkAt, ← heq] at hlink
    · exact FileTree.linkAt_directory hdirectory

theorem Grown.file (h : Grown destination t u)
    (hp : destination <+: p ∧ p ≠ destination) (hfile : v.entry p = some (.file content))
    (hframe : ∀ q, q ≠ p → v.entry q = u.entry q) : Grown destination t v := by
  refine ⟨?_, fun q hq => ?_, fun q hq => ?_⟩
  · rw [hframe destination fun hd => hp.2 hd.symm]
    exact h.directory
  · rw [hframe q fun hqp => hq (hqp ▸ hp)]
    exact h.frame q hq
  · by_cases hqp : q = p
    · rw [FileTree.linkAt, hqp, hfile]
    · have hlink := h.links q hq
      rwa [FileTree.linkAt, ← hframe q hqp] at hlink

theorem Grown.written (h : Grown destination t u)
    (content : Bytes) (hp : destination <+: p ∧ p ≠ destination) :
    Grown destination t (written u p content) := by
  unfold Disk.written
  cases hwrite : u.write p content with
  | error e => exact h
  | ok v =>
    obtain ⟨_, hfile, hframe⟩ := FileTree.write_eq_ok hwrite
    exact h.file hp hfile hframe

theorem raising_ends {α : Type} {x : Exec OsError Drive α} {Q : α → Drive → Prop}
    {R : Exc → Drive → Prop} (h : x.Ends d Q fun _ e => R .os e) : (raising x).Ends d Q R :=
  h.handle fun _ _ hR => Exec.ends_throw hR

theorem copyfileobj_ends (hok : ∀ b, Q () ⟨Disk.written d.tree p b, d.calls + 1⟩)
    (herror : ∀ b e, R e ⟨Disk.written d.tree p b, d.calls + 1⟩) :
    (copyfileobj env p content).Ends d Q R := by
  cases hfault : env.fault d.calls with
  | some e =>
    exact Exec.ends_of_error (by rw [copyfileobj, Exec.runOn_prim, hfault]) (herror _ e)
  | none => exact Exec.ends_of_ok (by rw [copyfileobj, Exec.runOn_prim, hfault]) (hok content)

def Stays (destination : Path) (t : FileTree Bytes) {α : Type} (x : Exec Exc Drive α) (d : Drive) :
    Prop :=
  x.Ends d (fun _ e => Grown destination t e.tree) fun _ e => Grown destination t e.tree

theorem extractMember_stays
    (hnamed : ∀ s ∈ destination, FileTree.Named s) (hfits : MemberFits limits member)
    (h : Grown destination t d.tree) :
    Stays destination t (extractMember env destination member) d := by
  have hmkdir (p : Path) (hp : p <+: destination ++ posixParts member.filename) (e : Drive)
      (he : Grown destination t e.tree) :
      Stays destination t (raising (mkdirParents env true p.reverse)) e := by
    apply raising_ends
    have hmade := @mkdirParents_ends env true p.reverse e
    rw [List.reverse_reverse] at hmade
    exact hmade.mono (fun _ _ hmakes => he.makes hmakes.1 hp) fun _ _ hmakes => he.makes hmakes.1 hp
  apply Exec.Ends.bind (Q := fun p e => p = destination ++ posixParts member.filename ∧ e = d)
  · apply raising_ends
    exact Exec.ends_of_ok (resolveMember_ends hnamed hfits h) ⟨rfl, rfl⟩
  rintro p e ⟨rfl, rfl⟩
  apply Exec.Ends.bind (Q := fun _ f => f = e)
  · exact Exec.ends_of_ok (Exec.runOn_check_pos (List.prefix_append _ _) _ _) rfl
  rintro _ f rfl
  split_ifs with hdirectory
  · exact hmkdir _ (List.prefix_refl _) f h
  · apply (hmkdir _ (List.dropLast_prefix _) f h).bind
    intro _ e he
    apply Exec.Ends.bind (Q := fun _ f => Grown destination t f.tree)
    · apply raising_ends
      apply call_ends
      · rintro u hu
        cases hu
        exact he
      · exact fun _ => he
    intro _ f hf
    apply Exec.Ends.bind (Q := fun _ g => Grown destination t g.tree ∧
      (posixParts member.filename ≠ []))
    · apply raising_ends
      apply call_ends
      · intro u hu
        have hadded := FileTree.added_of_create hu
        have hne : posixParts member.filename ≠ [] := by
          intro hnil
          have hfree := hadded.free
          rw [hnil, List.append_nil, hf.directory] at hfree
          cases hfree
        exact ⟨hf.file ⟨List.prefix_append _ _, fun heq => hne (List.append_right_eq_self.mp heq)⟩
          hadded.entry hadded.frame, hne⟩
      · exact fun _ => hf
    rintro _ g ⟨hg, hne⟩
    apply raising_ends
    have hbelow : destination <+: destination ++ posixParts member.filename ∧
        destination ++ posixParts member.filename ≠ destination :=
      ⟨List.prefix_append _ _, fun heq => hne (List.append_right_eq_self.mp heq)⟩
    exact copyfileobj_ends (fun content => hg.written content hbelow)
      fun content _ => hg.written content hbelow

theorem forM_stays (hnamed : ∀ s ∈ destination, FileTree.Named s)
    (hfits : ∀ member ∈ members, MemberFits limits member) (h : Grown destination t d.tree) :
    Stays destination t (members.forM (extractMember env destination)) d := by
  induction members generalizing d with
  | nil => exact Exec.ends_pure h
  | cons member members ih =>
    obtain ⟨hfirst, hrest⟩ := List.forall_mem_cons.mp hfits
    exact (extractMember_stays hnamed hfirst h).bind fun _ _ he => ih hrest he

theorem extractMembers_stays {zip : Zip} {archive : Bytes}
    (hnamed : ∀ s ∈ destination, FileTree.Named s)
    (hmembers : zip.infolist archive = some members)
    (hfits : ∀ member ∈ members, MemberFits limits member) (h : Grown destination t d.tree) :
    Stays destination t (extractMembers env zip archive destination) d := by
  apply Exec.Ends.bind (Q := fun _ e => Grown destination t e.tree)
  · apply raising_ends
    apply call_ends
    · rintro u hu
      cases hu
      exact h
    · exact fun _ => h
  intro _ e he
  apply Exec.Ends.bind (Q := fun ms f => ms = members ∧ f = e)
  · exact Exec.ends_of_ok (by rw [Exec.runOn_query, hmembers, orError_some]) ⟨rfl, rfl⟩
  rintro ms f ⟨rfl, rfl⟩
  exact forM_stays hnamed hfits he

end Destination

/-- What the limits say about the members of an archive. -/
structure Admitted (limits : ArchiveLimits) (members : List ZipInfo) : Prop where
  types : ∀ member ∈ members, member.fileType ∉ [FileType.link, .character, .block, .fifo]
  total : (members.map ZipInfo.fileSize).sum ≤ limits.extractedBytes
  ratio : ∀ member ∈ members,
    member.fileSize ≤ limits.compressionRatio * max member.compressSize 1
  depth : ∀ member ∈ members, (posixParts member.filename).length ≤ limits.directoryDepth
  names : ∀ member ∈ members, ∀ part ∈ posixParts member.filename,
    encodedLength part ≤ limits.filenameBytes

/-- What was there stays, and what is new lies below the destination. The destination itself
and the directories that lead to it may be new. -/
def Confined (destination : Path) (t u : FileTree Bytes) : Prop :=
  ∀ q, u.entry q = t.entry q ∨ t.entry q = none ∧
    (destination <+: q ∧ q ≠ destination ∨ q <+: destination ∧ u.entry q = some .directory)

/-- The extraction returned. -/
structure Extracted (zip : Zip) (limits : ArchiveLimits) (archive : Bytes) (destination : Path)
    (t u : FileTree Bytes) : Prop where
  created : t.entry destination = none
  confined : Confined destination t u
  members : ∃ members, zip.infolist archive = some members ∧ Admitted limits members

/-- The extraction raised. -/
structure Undone (kept : List Path) (destination : Path) (t u : FileTree Bytes) : Prop where
  untouched : t.entry destination ≠ none → ∀ q, u.entry q = t.entry q
  gone : kept = [] → t.entry destination = none → u.entry destination = none
  confined : Confined destination t u

section Whole

variable {zip : Zip} {limits : ArchiveLimits} {archive : Bytes} {destination : Path}

/-- An archive that was checked has members within the limits. -/
theorem admitted_of_validateArchive {members : List ZipInfo}
    (h : validateArchive zip limits archive = .ok members) :
    zip.infolist archive = some members ∧ (∀ member ∈ members, MemberFits limits member) ∧
      Admitted limits members := by
  simp only [validateArchive, except_bind_eq_ok_iff, ensure_eq_ok_iff, orError_eq_ok_iff,
    except_pure_eq_ok_iff, exists_const] at h
  obtain ⟨_, members', hmembers, _, next, hnext, rfl⟩ := h
  obtain ⟨hfits, htotal⟩ := (foldlM_validateMember limits members' (Nat.zero_le _)).mp ⟨next, hnext⟩
  refine ⟨hmembers, hfits, ?_, ?_, ?_, ?_, ?_⟩
  · exact fun member hmember => (hfits member hmember).type
  · rwa [Nat.zero_add] at htotal
  · exact fun member hmember => (hfits member hmember).ratio
  · exact fun member hmember => (hfits member hmember).depth
  · exact fun member hmember => (hfits member hmember).names

variable {t u : FileTree Bytes}

theorem confined_of_makes (h : Makes t u destination) : Confined destination t u := by
  intro q
  rcases h q with heq | ⟨hnone, hdirectory, hstart⟩
  · exact .inl heq
  · exact .inr ⟨hnone, .inr ⟨hstart, hdirectory⟩⟩

structure Begun (destination : Path) (t u : FileTree Bytes) : Prop where
  free : t.entry destination = none
  makes : Makes t u destination
  grown : Grown destination u u

theorem begun_of_makes (hfree : t.entry destination = none)
    (hmakes : Makes t u destination) (hdirectory : u.entry destination = some .directory) :
    Begun destination t u := by
  refine ⟨hfree, hmakes, hdirectory, fun _ _ => rfl, fun q hq => ?_⟩
  by_cases heq : q = destination
  · rw [heq]
    exact FileTree.linkAt_directory hdirectory
  · have hnone : u.entry q = none := by
      rw [hmakes.entry_of_not_below]
      · exact t.none_of_prefix hq hfree
      · exact fun hstart => heq (hstart.eq_of_length_le hq.length_le)
    rw [FileTree.linkAt, hnone]

variable {v : FileTree Bytes}

theorem Begun.confined (h : Begun destination t u)
    (hgrown : Grown destination u v) : Confined destination t v := by
  intro q
  by_cases hbelow : destination <+: q ∧ q ≠ destination
  · exact .inr ⟨t.none_of_prefix hbelow.1 h.free, .inl hbelow⟩
  · rw [hgrown.frame q hbelow]
    exact confined_of_makes h.makes q

theorem undone_refl (kept : List Path) : Undone kept destination t t where
  untouched _ _ := rfl
  gone _ h := h
  confined _ := .inl rfl

theorem undone_of_makes {kept : List Path} (h : Makes t u destination)
    (hsame : u.entry destination = t.entry destination) : Undone kept destination t u where
  untouched hsome q := by
    rcases h q with heq | ⟨hnone, _, hstart⟩
    · exact heq
    · exact absurd (t.none_of_prefix hstart hnone) hsome
  gone _ hnone := hsame.trans hnone
  confined := confined_of_makes h

/-- The destination was removed again. -/
theorem Begun.undone (h : Begun destination t u) (kept : List Path)
    (hgrown : Grown destination u v) : Undone kept destination t (v.rmtree kept destination) where
  untouched hsome := absurd h.free hsome
  gone hkept _ := by
    rw [hkept]
    apply FileTree.entry_rmtree_nil _ (List.prefix_refl _)
    rintro rfl
    have hfree := h.free
    rw [t.root] at hfree
    cases hfree
  confined q := by
    by_cases hremoved : (v.rmtree kept destination).entry q = v.entry q
    · rw [hremoved]
      exact h.confined hgrown q
    · have hbelow : destination <+: q :=
        not_not.mp fun hnot => hremoved (FileTree.entry_rmtree_of_not_below hnot)
      have hnone : (v.rmtree kept destination).entry q = none := by
        by_contra hsome
        refine hremoved (if_neg fun hcond => hsome (if_pos hcond))
      exact .inl (hnone.trans (t.none_of_prefix hbelow h.free).symm)

/-- Whatever call fails, an extraction that returns is confined to its destination, with
members within the limits, and one that raises is undone. -/
theorem extraction_confined_and_atomic (zip : Zip) (limits : ArchiveLimits) (archive : Bytes)
    (destination : List Char) (d : Drive) :
    (extractValidatedArchive env zip limits archive destination).Ends d
      (fun _ e => ∃ p, (resolveDestination env destination).runOn d = (.ok p, d) ∧
        Extracted zip limits archive p d.tree e.tree)
      fun _ e => ∀ p, (resolveDestination env destination).runOn d = (.ok p, d) →
        Undone env.kept p d.tree e.tree := by
  apply Exec.Ends.bind
    (Q := fun members e => e = d ∧ validateArchive zip limits archive = .ok members)
  · cases hvalidate : validateArchive zip limits archive with
    | error e =>
      exact Exec.ends_of_error (by rw [Exec.runOn_query]) fun p _ => undone_refl env.kept
    | ok members => exact Exec.ends_of_ok (by rw [Exec.runOn_query]) ⟨rfl, rfl⟩
  rintro members e ⟨rfl, hvalidate⟩
  obtain ⟨hmembers, hfits, hadmitted⟩ := admitted_of_validateArchive hvalidate
  apply Exec.Ends.bind (Q := fun p f => f = e ∧
    (resolveDestination env destination).runOn e = (.ok p, e) ∧ ∀ s ∈ p, FileTree.Named s)
  · apply raising_ends
    cases hwalk : e.tree.walk env.links (if destination.head? = some '/' then [] else env.cwd)
        (destination.splitOn '/') with
    | error failure =>
      refine Exec.ends_of_error (by rw [resolveDestination, Exec.runOn_query, hwalk]) ?_
      exact fun _ _ => undone_refl env.kept
    | ok p =>
      have hrun : (resolveDestination env destination).runOn e = (.ok p, e) := by
        rw [resolveDestination, Exec.runOn_query, hwalk]
      refine Exec.ends_of_ok hrun ⟨rfl, hrun, FileTree.named_of_walk ?_ hwalk⟩
      split_ifs
      · exact fun _ hs => absurd hs List.not_mem_nil
      · exact env.cwd_named
  rintro p f ⟨rfl, hresolve, hnamed⟩
  have huniq (q : Path) (hq : (resolveDestination env destination).runOn f = (.ok q, f)) :
      q = p := by
    rw [hresolve, Prod.mk.injEq, Except.ok.injEq] at hq
    exact hq.1.symm
  apply Exec.Ends.bind (Q := fun _ g => Begun p f.tree g.tree)
  · apply raising_ends
    have hmade := @mkdirParents_ends env false p.reverse f
    rw [List.reverse_reverse] at hmade
    apply hmade.mono
    · rintro _ g ⟨hmakes, hdirectory, hfree⟩
      exact begun_of_makes (hfree rfl) hmakes hdirectory
    · rintro _ g ⟨hmakes, hsame⟩ q hq
      rw [huniq q hq]
      exact undone_of_makes hmakes hsame
  intro _ g hbegun
  apply Exec.Ends.tryCatch (R := fun _ h => Grown p g.tree h.tree)
  · apply (extractMembers_stays hnamed hmembers hfits hbegun.grown).mono
    · intro _ h hgrown
      exact ⟨p, hresolve, hbegun.free, hbegun.confined hgrown, members, hmembers, hadmitted⟩
    · exact fun _ _ hgrown => hgrown
  · intro failure h hgrown
    apply Exec.Ends.bind (Q := fun _ i => i.tree = h.tree.rmtree env.kept p)
    · exact Exec.ends_of_ok (Exec.runOn_prim _ _) rfl
    · intro _ i hi
      refine Exec.ends_throw fun q hq => ?_
      rw [huniq q hq, hi]
      exact hbegun.undone env.kept hgrown

end Whole

def emptyZip : Zip where
  compressSize := fun _ => 0
  write := fun entries => if entries = [] then .ok [80, 75, 5, 6] else .error .other
  infolist := fun archive => if archive = [80, 75, 5, 6] then some [] else none
  infolist_write := by
    intro entries archive h
    split_ifs at h with hentries
    cases h
    rw [if_pos rfl, hentries]
    rfl

def blankTree : FileTree Bytes where
  entry p := if p = [] then some .directory else none
  root := rfl
  closed p s h := by simp at h

def blank : Drive := ⟨blankTree, 0⟩

def quiet : DriveEnv where
  fault _ := none
  torn _ := []
  links := 0
  kept := []
  cwd := []
  cwd_named := by simp

/-- The archive cannot be opened a second time, and the destination cannot be removed. -/
def stuck : DriveEnv := { quiet with
  fault := fun i => if i = 1 then some .failed else none
  kept := [["out".toList]] }

/-- If the extraction returns, all that is new lies strictly inside of the destination. -/
def StrictlyInside (env : DriveEnv) (zip : Zip) (archive : Bytes) (destination : List Char)
    (d : Drive) : Prop :=
  let run := (extractValidatedArchive env zip {} archive destination).runOn d
  run.1 = .ok ⟨⟩ → ∀ p, ((resolveDestination env destination).runOn d).1 = .ok p →
    ∀ q, d.tree.entry q = none → run.2.tree.entry q ≠ none → p <+: q ∧ q ≠ p

/-- If the extraction raises, the destination that it made does not exist any more. -/
def Gone (env : DriveEnv) (zip : Zip) (archive : Bytes) (destination : List Char) (d : Drive) :
    Prop :=
  let run := (extractValidatedArchive env zip {} archive destination).runOn d
  ∀ failure, run.1 = .error failure →
    ∀ p, ((resolveDestination env destination).runOn d).1 = .ok p → d.tree.entry p = none →
      run.2.tree.entry p = none

/-- Missing parents are made outside of the destination, and errors of the removal are
ignored. -/
theorem not_strictlyInside_and_not_gone :
    ¬ StrictlyInside quiet emptyZip [80, 75, 5, 6] "/new/out".toList blank ∧
      ¬ Gone stuck emptyZip [80, 75, 5, 6] "/out".toList blank := by
  constructor
  · intro h
    have hinside := h (by decide +kernel) ["new".toList, "out".toList] (by decide +kernel)
      ["new".toList] (by decide +kernel) (by decide +kernel)
    exact absurd hinside (by decide)
  · intro h
    have hgone := h .os (by decide +kernel) ["out".toList] (by decide +kernel) (by decide +kernel)
    revert hgone
    decide +kernel

end CodeResearch.Artifacts.Disk
