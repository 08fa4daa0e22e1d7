import CodeResearch.Library.Dict
import CodeResearch.Library.Text
import Mathlib

/-!
# Page references of a paper

The pages of a paper are joined to one text, the text is cut into sections at its headings,
and the pages are found again by a search for the heading in all pages.
-/
namespace CodeResearch.Analysis.Paper

abbrev Text := List Char

inductive SectionName
  | abstract | introduction | contributions | method | experiments | results | conclusion
deriving DecidableEq

def SectionName.text : SectionName → Text
  | .abstract => "abstract".toList
  | .introduction => "introduction".toList
  | .contributions => "contributions".toList
  | .method => "method".toList
  | .experiments => "experiments".toList
  | .results => "results".toList
  | .conclusion => "conclusion".toList

def sectionAliases : List (Text × SectionName) :=
  [("abstract".toList, .abstract), ("introduction".toList, .introduction),
    ("contributions".toList, .contributions), ("contribution".toList, .contributions),
    ("method".toList, .method), ("methods".toList, .method), ("approach".toList, .method),
    ("proposed method".toList, .method), ("model".toList, .method),
    ("architecture".toList, .method), ("experiments".toList, .experiments),
    ("results".toList, .results), ("conclusion".toList, .conclusion)]

inductive Confidence
  | high | medium | low
deriving DecidableEq

structure Page where
  pageNo : ℕ
  text : Text

structure PaperSection where
  name : SectionName
  title : Text
  text : Text
  pageStart : Option ℕ
  pageEnd : Option ℕ
  evidence : List Text
deriving DecidableEq

structure PaperContribution where
  id : Text
  title : Text
  description : Text
  sourceSection : SectionName
  pageNo : Option ℕ
  keywords : List Text
  evidence : List Text
  confidence : Confidence
deriving DecidableEq

/-- `str.lower`, the classes of letters, `_keywords_from_text`, and what the fallback of
`_extract_abstract` captures. -/
structure TextFunctions where
  lower : Text → Text
  lower_nil : lower [] = []
  isDigit : Char → Bool
  isWord : Char → Bool
  keywordsFromText : Text → ℕ → List Text
  searchAbstract : Text → Option Text

/-- `re.sub(r"\s+", " ", text)`. -/
def collapse : Text → Text
  | [] => []
  | c :: text =>
    if isSpace c then
      if (text.head?.map isSpace).getD false then collapse text else ' ' :: collapse text
    else c :: collapse text

def strip (text : Text) : Text := stripBy id text

/-- `_clean_line`. -/
def cleanLine (line : Text) : Text := strip (collapse line)

/-- `_trim_text`. -/
def trimText (text : Text) (maxChars : ℕ) : Text :=
  let cleaned := cleanLine text
  if cleaned.length ≤ maxChars then cleaned
  else (cleaned.take (maxChars - 3)).rdropWhile isSpace ++ "...".toList

variable (py : TextFunctions)

/-- What follows a match of `\d+(\.\d+)*\s+`, after a digit or before one. -/
def numbered : Bool → Text → Option Text
  | _, [] => none
  | afterDigit, c :: text =>
    if py.isDigit c then numbered true text
    else if afterDigit ∧ c = '.' then numbered false text
    else if afterDigit ∧ isSpace c then some (text.dropWhile isSpace)
    else none

/-- `_section_name`. -/
def sectionName (line : Text) : Option SectionName :=
  let normalized := py.lower (strip line)
  let normalized := (numbered py false normalized).getD normalized
  sectionAliases.lookup (normalized.rdropWhile (· = ':'))

/-- `_find_text_page`. -/
def findTextPage (text : Text) (pages : List Page) : Option ℕ :=
  if text = [] then none
  else (pages.find? fun page => py.lower text <:+: py.lower page.text).map Page.pageNo

/-- `"\n".join`. -/
def joinLines (lines : List Text) : Text := ['\n'].intercalate lines

/-- `_section_from_lines`. -/
def sectionFromLines (name : SectionName) (title : Text) (lines : List Text)
    (pages : List Page) : PaperSection :=
  let pageNo := findTextPage py title pages
  { name := name
    title := title
    text := trimText (strip (joinLines lines)) 5000
    pageStart := pageNo
    pageEnd := pageNo
    evidence := ["识别章节标题：".toList ++ title] }

/-- The local variables of `_extract_sections`; there is no title as long as it is empty. -/
structure Scan where
  sections : List PaperSection := []
  currentTitle : Text := []
  currentName : Option SectionName := none
  currentLines : List Text := []

def Scan.close (s : Scan) (pages : List Page) : List PaperSection :=
  match s.currentName with
  | some name =>
    if s.currentTitle ≠ [] then
      s.sections ++ [sectionFromLines py name s.currentTitle s.currentLines pages]
    else s.sections
  | none => s.sections

/-- The loop of `_extract_sections`. -/
def scanLine (pages : List Page) (s : Scan) (line : Text) : Scan :=
  let cleaned := cleanLine line
  match sectionName py cleaned with
  | some name => ⟨s.close py pages, cleaned, some name, []⟩
  | none =>
    if s.currentTitle ≠ [] then { s with currentLines := s.currentLines ++ [line] } else s

/-- `_extract_sections`. -/
def extractSections (fullText : Text) (pages : List Page) : List PaperSection :=
  ((splitLinesBy id fullText).foldl (scanLine py pages) {}).close py pages

/-- `_extract_abstract`. -/
def extractAbstract (sections : List PaperSection) (fullText : Text) : Option Text :=
  match sections.find? fun s => s.name = .abstract with
  | some s => some (trimText s.text 1500)
  | none => (py.searchAbstract fullText).map fun captured => trimText captured 1500

inductive MatchKind
  | strong | weak
deriving DecidableEq

def strongContributionPatterns : List Text :=
  ["we propose", "we introduce", "we design", "we develop", "our contribution", "novel",
    "new module", "new framework"].map String.toList

def weakContributionPatterns : List Text :=
  ["we present", "paper presents", "contribution", "framework", "module", "architecture", "loss",
    "encoder", "decoder", "backbone", "head"].map String.toList

local instance lawfulText : LawfulBEq Text := inferInstance

/-- `_contribution_match_kind`. -/
def contributionMatchKind (sentence : Text) : Option MatchKind :=
  if ∃ pattern ∈ strongContributionPatterns, pattern <:+: sentence then some .strong
  else
    let weakHits := weakContributionPatterns.filter fun pattern => pattern <:+: sentence
    if weakHits = [] then none
    else if ∃ pattern ∈ weakHits, pattern ∉ ["we present".toList, "paper presents".toList,
        "framework".toList, "architecture".toList] then some .weak
    else if ∃ marker ∈ ["we present".toList, "paper presents".toList, "our ".toList,
        "proposed".toList, "new ".toList], marker <:+: sentence then some .weak
    else none

/-- The pieces between the blanks that follow the end of a sentence. -/
def splitAfterStop : Bool → Text → List Text
  | _, [] => [[]]
  | afterStop, c :: text =>
    if afterStop ∧ c = ' ' then [] :: splitAfterStop false text
    else (splitAfterStop (c ∈ ['.', '!', '?']) text).modifyHead (c :: ·)

/-- `_split_sentences`. -/
def splitSentences (text : Text) : List Text :=
  ((splitAfterStop false (collapse text)).map strip).filter (· ≠ [])

/-- Runs of other letters become one blank each. -/
def wordsOnly : Text → Text
  | [] => []
  | c :: text =>
    if py.isWord c then c :: wordsOnly text
    else if (text.head?.map fun d => !py.isWord d).getD false then wordsOnly text
    else ' ' :: wordsOnly text

def dedupeKey (cleaned : Text) : Text := strip (wordsOnly py (py.lower cleaned))

/-- `_contribution_title`. -/
def contributionTitle (sentence : Text) : Text :=
  let words := [' '].intercalate ((py.keywordsFromText sentence 10).take 10)
  if words = [] then trimText sentence 80 else words

/-- `_contribution_evidence`. -/
def contributionEvidence (sectionName : SectionName) (sentence : Text) (kind : MatchKind) :
    List Text :=
  [sectionName.text ++ " 中句子：".toList ++ sentence,
    match kind with
    | .strong => "命中强创新点关键词，作为核心创新点候选。".toList
    | .weak => "启发式候选：仅命中弱创新点表达，置信度保持为 low。".toList]

/-- `_contribution_confidence`. -/
def contributionConfidence (sectionName : SectionName) (kind : MatchKind) : Confidence :=
  if kind ≠ .strong then .low
  else if sectionName ∈ [SectionName.abstract, .contributions, .method] then .high
  else if sectionName = .introduction then .medium
  else .low

/-- A text that contributions are taken from. -/
structure CandidateSource where
  sectionName : SectionName
  text : Text
  pageNo : Option ℕ

def candidateSources (sections : List PaperSection) (abstract : Option Text) :
    List CandidateSource :=
  let sources := (sections.filter fun s =>
    s.name ∈ [SectionName.abstract, .introduction, .contributions, .method]).map fun s =>
      ⟨s.name, s.text, s.pageStart⟩
  match abstract with
  | some text => if text = [] then sources else ⟨.abstract, text, none⟩ :: sources
  | none => sources

def candidates (sources : List CandidateSource) : List (CandidateSource × Text) :=
  sources.flatMap fun source => (splitSentences source.text).map fun sentence => (source, sentence)

def contribution (number : ℕ) (source : CandidateSource) (cleaned : Text) (kind : MatchKind) :
    PaperContribution where
  id := 'C' :: (toString number).toList
  title := contributionTitle py cleaned
  description := cleaned
  sourceSection := source.sectionName
  pageNo := source.pageNo
  keywords := py.keywordsFromText cleaned 8
  evidence := contributionEvidence source.sectionName cleaned kind
  confidence := contributionConfidence source.sectionName kind

/-- The two loops of `_extract_contributions`. -/
def collect : List (CandidateSource × Text) → List PaperContribution → List Text →
    List PaperContribution
  | [], contributions, _ => contributions
  | (source, sentence) :: rest, contributions, seen =>
    match contributionMatchKind (py.lower sentence) with
    | none => collect rest contributions seen
    | some kind =>
      let cleaned := trimText sentence 600
      if cleaned = [] ∨ dedupeKey py cleaned ∈ seen then collect rest contributions seen
      else
        let contributions :=
          contributions ++ [contribution py (contributions.length + 1) source cleaned kind]
        if contributions.length ≥ 5 then contributions
        else collect rest contributions (dedupeKey py cleaned :: seen)

/-- `_extract_contributions`. -/
def extractContributions (sections : List PaperSection) (abstract : Option Text) :
    List PaperContribution :=
  collect py (candidates (candidateSources sections abstract)) [] []

def pagesOf (texts : List Text) : List Page :=
  texts.zipIdx.map fun numbered => ⟨numbered.2 + 1, numbered.1⟩

/-- The sections and the contributions of `parse_paper_pdf`. -/
def parsePaper (texts : List Text) : List PaperSection × List PaperContribution :=
  let pages := pagesOf texts
  let fullText := strip (joinLines (pages.map Page.text))
  if fullText = [] then ([], [])
  else
    let sections := extractSections py fullText pages
    (sections, extractContributions py sections (extractAbstract py sections fullText))

def markedText (pages : List Page) : List (Char × ℕ) :=
  stripBy Prod.fst ([('\n', 0)].intercalate
    (pages.map fun page => page.text.map fun c => (c, page.pageNo)))

abbrev Line := List (Char × ℕ)

def markedLines (pages : List Page) : List Line := splitLinesBy Prod.fst (markedText pages)

def Line.text (line : Line) : Text := line.map Prod.fst

def Line.opens (line : Line) : Option SectionName := sectionName py (cleanLine line.text)

/-- A heading with the lines up to the next one. -/
structure Part where
  heading : Line
  name : SectionName
  body : List Line

namespace Part

def title (part : Part) : Text := cleanLine part.heading.text

def text (part : Part) : Text := cleanLine (strip (joinLines (part.body.map Line.text)))

def lastPage (part : Part) : Option ℕ :=
  (part.body.flatten.filter fun c => !isSpace c.1).getLast?.map Prod.snd

end Part

structure Matches (part : Part) (s : PaperSection) : Prop where
  name : s.name = part.name
  title : s.title = part.title
  text : s.text = part.text
  pageStart : ∀ c ∈ part.heading, s.pageStart = some c.2
  pageEnd : ∀ page, part.lastPage = some page → s.pageEnd = some page

def SectionsTrue (pages : List Page) (sections : List PaperSection) : Prop :=
  ∃ before parts, markedLines pages =
      before ++ parts.flatMap (fun part => part.heading :: part.body) ∧
    (∀ line ∈ before, line.opens py = none) ∧
    (∀ part ∈ parts, part.heading.opens py = some part.name ∧
      ∀ line ∈ part.body, line.opens py = none) ∧
    List.Forall₂ Matches parts sections

/-- A page with the number contains a sentence with the description, up to white space. -/
def ShownOn (pages : List Page) (pageNo : Option ℕ) (description : Text) : Prop :=
  ∃ page ∈ pages, pageNo = some page.pageNo ∧
    ∃ sentence, trimText sentence 600 = description ∧ sentence <:+: cleanLine page.text

def PagesTrue (texts : List Text) : Prop :=
  SectionsTrue py (pagesOf texts) (parsePaper py texts).1 ∧
    ∀ c ∈ (parsePaper py texts).2, ShownOn (pagesOf texts) c.pageNo c.description

variable {part : Part}

section Cut

/-- The parts of a text from its first heading on. -/
def cut : List Line → List Part
  | [] => []
  | line :: lines =>
    match line.opens py with
    | some name => ⟨line, name, lines.takeWhile fun l => (l.opens py).isNone⟩ :: cut lines
    | none => cut lines

variable {py}

/-- Nothing is lost or moved by the cut. -/
theorem lines_eq_cut (lines : List Line) :
    lines = lines.takeWhile (fun l => (l.opens py).isNone) ++
      (cut py lines).flatMap fun part => part.heading :: part.body := by
  induction lines with
  | nil => rfl
  | cons line lines ih =>
    rw [cut]
    cases hopens : line.opens py with
    | none =>
      rw [List.takeWhile_cons_of_pos (by rw [hopens]; rfl), List.cons_append]
      dsimp only
      rw [← ih]
    | some name =>
      rw [List.takeWhile_cons_of_neg (by rw [hopens]; simp), List.nil_append, List.flatMap_cons]
      dsimp only
      rw [List.cons_append, ← ih]

theorem cut_spec {lines : List Line} (h : part ∈ cut py lines) :
    part.heading.opens py = some part.name ∧ ∀ line ∈ part.body, line.opens py = none := by
  induction lines with
  | nil => cases h
  | cons line lines ih =>
    rw [cut] at h
    cases hopens : line.opens py with
    | none =>
      rw [hopens] at h
      exact ih h
    | some name =>
      rw [hopens] at h
      rcases List.mem_cons.mp h with rfl | h
      · refine ⟨hopens, fun l hl => ?_⟩
        have hnone := List.mem_takeWhile_imp hl
        exact Option.isNone_iff_eq_none.mp hnone
      · exact ih h

theorem cut_append_of_none {before lines : List Line} (h : ∀ line ∈ before, line.opens py = none) :
    cut py (before ++ lines) = cut py lines := by
  induction before with
  | nil => rfl
  | cons line before ih =>
    obtain ⟨hline, hbefore⟩ := List.forall_mem_cons.mp h
    rw [List.cons_append, cut, hline]
    exact ih hbefore

/-- The parts are determined by the lines. -/
theorem cut_unique {before : List Line} {parts : List Part}
    (hbefore : ∀ line ∈ before, line.opens py = none)
    (hparts : ∀ part ∈ parts, part.heading.opens py = some part.name ∧
      ∀ line ∈ part.body, line.opens py = none) :
    cut py (before ++ parts.flatMap fun part => part.heading :: part.body) = parts := by
  rw [cut_append_of_none hbefore]
  clear hbefore before
  induction parts with
  | nil => rfl
  | cons part parts ih =>
    obtain ⟨⟨hheading, hbody⟩, hrest⟩ := List.forall_mem_cons.mp hparts
    have htake : (part.body ++ parts.flatMap fun part => part.heading :: part.body).takeWhile
        (fun l => (l.opens py).isNone) = part.body := by
      rw [List.takeWhile_append_of_pos]
      · cases parts with
        | nil => rw [List.flatMap_nil, List.takeWhile_nil, List.append_nil]
        | cons next parts =>
          have hnext := (hrest next List.mem_cons_self).1
          rw [List.flatMap_cons, List.cons_append, List.takeWhile_cons_of_neg (by rw [hnext]; simp),
            List.append_nil]
      · intro line hline
        rw [hbody line hline]
        rfl
    rw [List.flatMap_cons, List.cons_append, cut, hheading]
    dsimp only
    rw [htake, cut_append_of_none hbody, ih hrest]

theorem sectionName_nil : sectionName py [] = none := by
  have hnil : py.lower (strip []) = [] := py.lower_nil
  unfold sectionName
  dsimp only
  rw [hnil]
  rfl

theorem title_ne_nil (h : part.heading.opens py = some part.name) : part.title ≠ [] := by
  intro hnil
  rw [Line.opens, ← Part.title, hnil, sectionName_nil] at h
  cases h

theorem heading_ne_nil (h : part.heading.opens py = some part.name) : part.heading ≠ [] := by
  intro hnil
  refine title_ne_nil h ?_
  rw [Part.title, hnil]
  rfl

end Cut

section Loops

variable {py} {pages : List Page}

theorem joinLines_eq (pages : List Page) : joinLines (pages.map Page.text) =
    ([('\n', 0)].intercalate (pages.map fun page =>
      page.text.map fun c => (c, page.pageNo))).map Prod.fst := by
  rw [joinLines, map_intercalate, List.map_map]
  congr 1
  apply List.map_congr_left
  intro page _
  rw [Function.comp_apply, List.map_map]
  exact (List.map_id' page.text).symm

theorem fullText_eq (pages : List Page) :
    strip (joinLines (pages.map Page.text)) = (markedText pages).map Prod.fst := by
  rw [joinLines_eq, strip, stripBy_map]
  rfl

theorem lines_eq (pages : List Page) :
    splitLinesBy id (strip (joinLines (pages.map Page.text))) =
      (markedLines pages).map Line.text := by
  rw [fullText_eq, splitLinesBy_map]
  rfl

def sectionOf (py : TextFunctions) (pages : List Page) (part : Part) : PaperSection :=
  sectionFromLines py part.name part.title (part.body.map Line.text) pages

theorem scanLine_of_none {line : Line} (h : line.opens py = none) (s : Scan) :
    scanLine py pages s line.text =
      if s.currentTitle ≠ [] then { s with currentLines := s.currentLines ++ [line.text] }
      else s := by
  have hline : sectionName py (cleanLine line.text) = none := h
  unfold scanLine
  dsimp only
  rw [hline]

theorem scanLine_of_some {line : Line} {name : SectionName} (h : line.opens py = some name)
    (s : Scan) : scanLine py pages s line.text =
      ⟨s.close py pages, cleanLine line.text, some name, []⟩ := by
  have hline : sectionName py (cleanLine line.text) = some name := h
  unfold scanLine
  dsimp only
  rw [hline]

/-- The rest of the loop, with a section open. -/
theorem foldl_scanLine_open (lines : List Line) {name : SectionName} {title : Text}
    (htitle : title ≠ []) (sections : List PaperSection) (done : List Text) :
    (((lines.map Line.text).foldl (scanLine py pages) ⟨sections, title, some name, done⟩).close py
      pages) = sections ++ sectionFromLines py name title
        (done ++ (lines.takeWhile fun l => (l.opens py).isNone).map Line.text) pages ::
      (cut py lines).map (sectionOf py pages) := by
  have hclose (sections : List PaperSection) (name : SectionName) {title : Text}
      (htitle : title ≠ []) (done : List Text) :
      (Scan.mk sections title (some name) done).close py pages =
        sections ++ [sectionFromLines py name title done pages] := if_pos htitle
  induction lines generalizing sections name title done with
  | nil =>
    rw [List.map_nil, List.foldl_nil, hclose _ _ htitle, List.takeWhile_nil, List.map_nil,
      List.append_nil, cut, List.map_nil]
  | cons line lines ih =>
    rw [List.map_cons, List.foldl_cons, cut]
    cases hopens : line.opens py with
    | none =>
      rw [List.takeWhile_cons_of_pos (by rw [hopens]; rfl), scanLine_of_none hopens,
        if_pos htitle, ih htitle, List.map_cons, List.append_assoc, List.singleton_append]
    | some next =>
      have hnext := @title_ne_nil py ⟨line, next, []⟩ hopens
      rw [List.takeWhile_cons_of_neg (by rw [hopens]; simp), List.map_nil, List.append_nil,
        scanLine_of_some hopens, hclose _ _ htitle]
      refine (ih hnext _ _).trans ?_
      rw [List.append_assoc, List.singleton_append, List.nil_append, List.map_cons]
      rfl

/-- The loop, before the first heading. -/
theorem foldl_scanLine (lines : List Line) :
    ((lines.map Line.text).foldl (scanLine py pages) {}).close py pages =
      (cut py lines).map (sectionOf py pages) := by
  induction lines with
  | nil => rfl
  | cons line lines ih =>
    rw [List.map_cons, List.foldl_cons, cut]
    cases hopens : line.opens py with
    | none =>
      rw [scanLine_of_none hopens, if_neg fun h => h rfl]
      exact ih
    | some name =>
      have htitle := @title_ne_nil py ⟨line, name, []⟩ hopens
      rw [scanLine_of_some hopens]
      refine (foldl_scanLine_open lines htitle [] []).trans ?_
      rw [List.nil_append, List.nil_append, List.map_cons]
      rfl

theorem extractSections_eq (pages : List Page) :
    extractSections py (strip (joinLines (pages.map Page.text))) pages =
      (cut py (markedLines pages)).map (sectionOf py pages) := by
  rw [extractSections, lines_eq, foldl_scanLine]

def chosen (py : TextFunctions) (candidates : List (CandidateSource × Text)) :
    List (CandidateSource × Text) :=
  (firstBy (fun c => dedupeKey py (trimText c.2 600)) (candidates.filter fun c =>
    (contributionMatchKind (py.lower c.2)).isSome ∧ trimText c.2 600 ≠ [])).take 5

def reference (c : PaperContribution) : Option ℕ × Text := (c.pageNo, c.description)

theorem map_reference_collect (candidates : List (CandidateSource × Text))
    (contributions : List PaperContribution) (seen : List Text) (hlt : contributions.length < 5) :
    (collect py candidates contributions seen).map reference = contributions.map reference ++
      (((firstBy (fun c => dedupeKey py (trimText c.2 600)) (candidates.filter fun c =>
        (contributionMatchKind (py.lower c.2)).isSome ∧ trimText c.2 600 ≠ [])).filter
          fun c => dedupeKey py (trimText c.2 600) ∉ seen).take (5 - contributions.length)).map
        fun c => (c.1.pageNo, trimText c.2 600) := by
  induction candidates generalizing contributions seen with
  | nil => rw [collect, List.filter_nil, firstBy, List.filter_nil, List.take_nil, List.map_nil,
      List.append_nil]
  | cons c candidates ih =>
    obtain ⟨source, sentence⟩ := c
    rw [collect]
    cases hkind : contributionMatchKind (py.lower sentence) with
    | none =>
      rw [List.filter_cons_of_neg (by simp [hkind])]
      exact ih contributions seen hlt
    | some kind =>
      dsimp only
      by_cases hnil : trimText sentence 600 = []
      · rw [if_pos (.inl hnil), List.filter_cons_of_neg (by simp [hnil])]
        exact ih contributions seen hlt
      · rw [List.filter_cons_of_pos (by simp [hkind, hnil]), firstBy]
        by_cases hseen : dedupeKey py (trimText sentence 600) ∈ seen
        · rw [if_pos (.inr hseen), List.filter_cons_of_neg (by simpa using hseen),
            List.filter_filter, ih contributions seen hlt]
          congr 3
          apply List.filter_congr
          intro c _
          by_cases hc : dedupeKey py (trimText c.2 600) = dedupeKey py (trimText sentence 600)
          · simp [hc, hseen]
          · simp [hc]
        · have hrest : 5 - contributions.length = 5 - contributions.length - 1 + 1 := by omega
          rw [if_neg (by simp [hnil, hseen]), List.filter_cons_of_pos (by simpa using hseen), hrest,
            List.take_succ_cons, List.map_cons, List.length_append, List.length_singleton]
          split_ifs with hfive
          · have hzero : 5 - contributions.length - 1 = 0 := by omega
            rw [hzero, List.take_zero, List.map_nil, List.map_append]
            rfl
          · rw [ih _ _ (by rw [List.length_append, List.length_singleton]; omega), List.map_append,
              List.append_assoc, List.length_append, List.length_singleton, Nat.sub_sub]
            congr 1
            rw [List.map_singleton, List.singleton_append]
            congr 3
            rw [List.filter_filter]
            apply List.filter_congr
            intro c _
            rw [Bool.eq_iff_iff]
            simp only [Bool.and_eq_true, decide_eq_true_eq, List.mem_cons, not_or]
            exact and_comm

end Loops

section Exact

variable {py} {pages : List Page}

def FirstOn (py : TextFunctions) (pages : List Page) (text : Text) (pageNo : ℕ) : Prop :=
  ∃ before page after, pages = before ++ page :: after ∧ page.pageNo = pageNo ∧
    py.lower text <:+: py.lower page.text ∧ ∀ p ∈ before, ¬ py.lower text <:+: py.lower p.text

def Part.section (part : Part) : PaperSection where
  name := part.name
  title := part.title
  text := part.text
  pageStart := part.heading.head?.map Prod.snd
  pageEnd := part.heading.head?.map Prod.snd
  evidence := ["识别章节标题：".toList ++ part.title]

/-- Each heading is first seen on its page, each section ends on that page and is not too long,
and the sentences that are chosen from such sections are on the pages of their headings. -/
structure Plain (py : TextFunctions) (texts : List Text) : Prop where
  first : ∀ part ∈ cut py (markedLines (pagesOf texts)), ∀ c ∈ part.heading,
    FirstOn py (pagesOf texts) part.title c.2
  single : ∀ part ∈ cut py (markedLines (pagesOf texts)), ∀ c ∈ part.heading,
    ∀ page, part.lastPage = some page → page = c.2
  short : ∀ part ∈ cut py (markedLines (pagesOf texts)), part.text.length ≤ 5000
  shown : ∀ fullText, strip (joinLines ((pagesOf texts).map Page.text)) = fullText →
    fullText ≠ [] →
    let sections := (cut py (markedLines (pagesOf texts))).map Part.section
    ∀ c ∈ chosen py (candidates (candidateSources sections
      (extractAbstract py sections fullText))),
      ShownOn (pagesOf texts) c.1.pageNo (trimText c.2 600)

theorem findTextPage_eq_some_iff {text : Text} (htext : text ≠ []) {pageNo : ℕ} :
    findTextPage py text pages = some pageNo ↔ FirstOn py pages text pageNo := by
  rw [findTextPage, if_neg htext, Option.map_eq_some_iff]
  simp only [List.find?_eq_some_iff_append, decide_eq_true_eq, Bool.not_eq_true',
    decide_eq_false_iff_not]
  constructor
  · rintro ⟨page, ⟨hpage, before, after, rfl, hbefore⟩, rfl⟩
    exact ⟨before, page, after, rfl, rfl, hpage, hbefore⟩
  · rintro ⟨before, page, after, rfl, rfl, hpage, hbefore⟩
    exact ⟨page, ⟨hpage, before, after, rfl, hbefore⟩, rfl⟩

/-- A text is trimmed to itself, up to white space, where it is short enough. -/
theorem trimText_eq_iff {text : Text} {maxChars : ℕ} (hmax : 3 ≤ maxChars) :
    trimText text maxChars = cleanLine text ↔ (cleanLine text).length ≤ maxChars := by
  unfold trimText
  dsimp only
  split_ifs with h
  · exact iff_of_true rfl h
  · refine iff_of_false (fun heq => h ?_) h
    have hlength := congrArg List.length heq
    have hfront := (List.rdropWhile_prefix (l := (cleanLine text).take (maxChars - 3))
      isSpace).length_le
    rw [List.length_append, String.length_toList] at hlength
    rw [List.length_take] at hfront
    have hdots : "...".length = 3 := rfl
    omega

theorem matches_iff (hopens : part.heading.opens py = some part.name) :
    Matches part (sectionOf py pages part) ↔
      (∀ c ∈ part.heading, FirstOn py pages part.title c.2) ∧
        (∀ c ∈ part.heading, ∀ page, part.lastPage = some page → page = c.2) ∧
          part.text.length ≤ 5000 := by
  have hstart (pageNo : ℕ) : (sectionOf py pages part).pageStart = some pageNo ↔
      FirstOn py pages part.title pageNo := findTextPage_eq_some_iff (title_ne_nil hopens)
  have htext : (sectionOf py pages part).text = part.text ↔ part.text.length ≤ 5000 :=
    trimText_eq_iff (by decide)
  constructor
  · intro h
    refine ⟨fun c hc => (hstart c.2).mp (h.pageStart c hc), fun c hc page hpage => ?_,
      htext.mp h.text⟩
    have hend : (sectionOf py pages part).pageEnd = some page := h.pageEnd page hpage
    exact Option.some.inj (hend.symm.trans (h.pageStart c hc))
  · rintro ⟨hfirst, hsingle, hshort⟩
    refine ⟨rfl, rfl, htext.mpr hshort, fun c hc => (hstart c.2).mpr (hfirst c hc),
      fun page hpage => ?_⟩
    obtain ⟨c, hc⟩ := List.exists_mem_of_ne_nil _ (heading_ne_nil hopens)
    rw [hsingle c hc page hpage]
    exact (hstart c.2).mpr (hfirst c hc)

theorem sectionsTrue_iff : SectionsTrue py pages ((cut py (markedLines pages)).map
    (sectionOf py pages)) ↔
      ∀ part ∈ cut py (markedLines pages), Matches part (sectionOf py pages part) := by
  constructor
  · rintro ⟨before, parts, hlines, hbefore, hparts, hmatches⟩
    have hcut : cut py (markedLines pages) = parts := by
      rw [hlines]
      exact cut_unique hbefore hparts
    rw [hcut, List.forall₂_map_right_iff, List.forall₂_same] at hmatches
    rwa [hcut]
  · intro h
    refine ⟨_, _, lines_eq_cut (markedLines pages), fun line hline => ?_,
      fun part hpart => cut_spec hpart, ?_⟩
    · have hnone := List.mem_takeWhile_imp hline
      exact Option.isNone_iff_eq_none.mp hnone
    · rw [List.forall₂_map_right_iff, List.forall₂_same]
      exact h

theorem sectionOf_eq (hopens : part.heading.opens py = some part.name)
    (h : Matches part (sectionOf py pages part)) : sectionOf py pages part = part.section := by
  have hstart : findTextPage py part.title pages = part.heading.head?.map Prod.snd := by
    cases hheading : part.heading with
    | nil => exact absurd hheading (heading_ne_nil hopens)
    | cons c heading =>
      have hfirst := h.pageStart c (hheading ▸ List.mem_cons_self)
      exact hfirst
  have htext : trimText (strip (joinLines (part.body.map Line.text))) 5000 = part.text := h.text
  rw [sectionOf, sectionFromLines, Part.section, hstart, htext]

theorem markedLines_nil (h : strip (joinLines (pages.map Page.text)) = []) :
    markedLines pages = [] := by
  rw [fullText_eq, List.map_eq_nil_iff] at h
  rw [markedLines, h]
  rfl

/-- The contributions are shown on their pages if and only if the chosen candidates are. -/
theorem shown_iff (sections : List PaperSection) (abstract : Option Text) :
    (∀ c ∈ extractContributions py sections abstract, ShownOn pages c.pageNo c.description) ↔
      ∀ c ∈ chosen py (candidates (candidateSources sections abstract)),
        ShownOn pages c.1.pageNo (trimText c.2 600) := by
  have hreferences : (extractContributions py sections abstract).map reference =
      (chosen py (candidates (candidateSources sections abstract))).map fun c =>
        (c.1.pageNo, trimText c.2 600) := by
    refine (@map_reference_collect py _ [] [] (by decide)).trans ?_
    simp only [List.not_mem_nil, not_false_eq_true, decide_true, List.filter_true, List.map_nil,
      List.nil_append, List.length_nil, Nat.sub_zero]
    rfl
  have hleft : (∀ c ∈ extractContributions py sections abstract,
      ShownOn pages c.pageNo c.description) ↔
      ∀ r ∈ (extractContributions py sections abstract).map reference,
        ShownOn pages r.1 r.2 := by
    rw [List.forall_mem_map]
    rfl
  rw [hleft, hreferences, List.forall_mem_map]

/-- The page references of an analysis are true if and only if the paper is plain. -/
theorem pagesTrue_iff (py : TextFunctions) (texts : List Text) :
    PagesTrue py texts ↔ Plain py texts := by
  by_cases hempty : strip (joinLines ((pagesOf texts).map Page.text)) = []
  · have hlines := markedLines_nil hempty
    have hparse : parsePaper py texts = ([], []) := if_pos hempty
    constructor
    · intro _
      refine ⟨?_, ?_, ?_, fun fullText hfull hne => absurd (hfull.symm.trans hempty) hne⟩ <;>
        (rw [hlines]; exact fun part hpart => absurd hpart List.not_mem_nil)
    · intro _
      rw [PagesTrue, hparse]
      refine ⟨⟨[], [], hlines, ?_, ?_, .nil⟩, ?_⟩ <;>
        exact fun _ hmem => absurd hmem List.not_mem_nil
  · have hparse : parsePaper py texts =
        ((cut py (markedLines (pagesOf texts))).map (sectionOf py (pagesOf texts)),
          extractContributions py ((cut py (markedLines (pagesOf texts))).map
            (sectionOf py (pagesOf texts))) (extractAbstract py
              ((cut py (markedLines (pagesOf texts))).map (sectionOf py (pagesOf texts)))
                (strip (joinLines ((pagesOf texts).map Page.text))))) := by
      rw [← extractSections_eq]
      exact if_neg hempty
    have hideal (h : ∀ part ∈ cut py (markedLines (pagesOf texts)),
        Matches part (sectionOf py (pagesOf texts) part)) :
        (cut py (markedLines (pagesOf texts))).map (sectionOf py (pagesOf texts)) =
          (cut py (markedLines (pagesOf texts))).map Part.section :=
      List.map_congr_left fun part hpart => sectionOf_eq (cut_spec hpart).1 (h part hpart)
    rw [PagesTrue, hparse, sectionsTrue_iff, shown_iff]
    constructor
    · rintro ⟨hmatches, hshown⟩
      have hparts (part : Part) (hpart : part ∈ cut py (markedLines (pagesOf texts))) :=
        (matches_iff (cut_spec hpart).1).mp (hmatches part hpart)
      refine ⟨fun part hpart => (hparts part hpart).1, fun part hpart => (hparts part hpart).2.1,
        fun part hpart => (hparts part hpart).2.2, fun fullText hfull _ => ?_⟩
      rw [hideal hmatches, hfull] at hshown
      exact hshown
    · intro h
      have hmatches (part : Part) (hpart : part ∈ cut py (markedLines (pagesOf texts))) :
          Matches part (sectionOf py (pagesOf texts) part) :=
        (matches_iff (cut_spec hpart).1).mpr
          ⟨h.first part hpart, h.single part hpart, h.short part hpart⟩
      refine ⟨hmatches, ?_⟩
      rw [hideal hmatches]
      exact h.shown _ rfl hempty

end Exact

namespace Sample

def plainFunctions : TextFunctions where
  lower text := text.map Char.toLower
  lower_nil := rfl
  isDigit := Char.isDigit
  isWord c := c.isAlphanum || c = '_'
  keywordsFromText _ _ := []
  searchAbstract _ := none

/-- The second page begins with its heading, which is a word of the first page as well. -/
def texts : List Text := ["Introduction\nOur method is fast.".toList, "Method\nText.".toList]

theorem texts_pages_false : ¬ ∀ (py : TextFunctions) (texts : List Text), PagesTrue py texts := by
  intro h
  obtain ⟨⟨before, parts, hlines, hbefore, hparts, hmatches⟩, _⟩ := h plainFunctions texts
  have hcut : cut plainFunctions (markedLines (pagesOf texts)) = parts := by
    rw [hlines]
    exact cut_unique hbefore hparts
  have hwrong : ∃ pair ∈ (cut plainFunctions (markedLines (pagesOf texts))).zip
      (parsePaper plainFunctions texts).1, ('M', 2) ∈ pair.1.heading ∧ pair.2.pageStart = some 1 := by
    decide +kernel
  obtain ⟨⟨part, s⟩, hpair, hheading, hstart⟩ := hwrong
  rw [hcut] at hpair
  have hmatch : Matches part s := List.forall₂_zip hmatches hpair
  exact absurd (hstart.symm.trans (hmatch.pageStart _ hheading)) (by decide)

end Sample

end CodeResearch.Analysis.Paper
