import CodeResearch.Library.Text

/-!
# Parsing URLs

`urlparse` of Python 3.11 and the host and port it reads off a result. A URL without its
last slashes has the scheme and the network location of the URL itself.
-/
namespace CodeResearch

/-- What parsing takes from the interpreter. -/
structure UrlParser where
  /-- `str.lower`. -/
  lower : List Char → List Char
  /-- Does `_checknetloc` let the location pass? -/
  checkNetloc : List Char → Bool
  /-- Does `_check_bracketed_host` let the host pass? -/
  checkBracketed : List Char → Bool

structure ParsedUrl where
  scheme : List Char
  netloc : List Char
  path : List Char
  params : List Char
  query : List Char
  fragment : List Char
deriving DecidableEq

namespace ParsedUrl

/-- `text.partition(sep)` with the separator left out. -/
def partition (sep : Char) (text : List Char) : List Char × List Char :=
  (text.takeWhile (· ≠ sep), (text.dropWhile (· ≠ sep)).drop 1)

def afterLast (sep : Char) (text : List Char) : List Char :=
  (text.reverse.takeWhile (· ≠ sep)).reverse

/-- The text without the control characters and spaces before it, and without tabs and line
ends in it. -/
def clean (url : List Char) : List Char :=
  (url.dropWhile fun c => decide (c.toNat ≤ 32)).filter fun c =>
    c.toNat ≠ 9 ∧ c.toNat ≠ 13 ∧ c.toNat ≠ 10

/-- `scheme_chars`. -/
def isSchemeChar (c : Char) : Bool := c.isAlphanum ∨ c = '+' ∨ c = '-' ∨ c = '.'

/-- The scheme in small letters and what comes after its colon. -/
def splitScheme (url : List Char) : List Char × List Char :=
  let scheme := url.takeWhile (· ≠ ':')
  if ':' ∈ url ∧ scheme.head?.any Char.isAlpha ∧ scheme.all isSchemeChar then
    (scheme.map Char.toLower, url.drop (scheme.length + 1))
  else ([], url)

/-- Does the network location end at the character? -/
def isDelimiter (c : Char) : Bool := c = '/' ∨ c = '?' ∨ c = '#'

def splitNetloc (url : List Char) : List Char × List Char :=
  if ['/', '/'] <+: url then
    ((url.drop 2).takeWhile fun c => !isDelimiter c, (url.drop 2).dropWhile fun c => !isDelimiter c)
  else ([], url)

/-- `uses_params`. -/
def usesParams : List String :=
  ["", "ftp", "hdl", "prospero", "http", "imap", "https", "shttp", "rtsp", "rtsps", "rtspu",
    "sip", "sips", "mms", "sftp", "tel"]

/-- `_splitparams`: the parameters stand in the last segment. -/
def splitParams (url : List Char) : List Char × List Char :=
  let segment := afterLast '/' url
  if ';' ∈ segment then
    (url.take (url.length - segment.length) ++ (partition ';' segment).1, (partition ';' segment).2)
  else (url, [])

def pathParams (scheme rest : List Char) : List Char × List Char :=
  if String.ofList scheme ∈ usesParams ∧ ';' ∈ rest then splitParams rest else (rest, [])

/-- Are the brackets in a network location those of a host that may stand in them? -/
def bracketsPass (parser : UrlParser) (netloc : List Char) : Bool :=
  if '[' ∈ netloc ∨ ']' ∈ netloc then
    decide ('[' ∈ netloc ∧ ']' ∈ netloc) &&
      parser.checkBracketed (partition ']' (partition '[' netloc).2).1
  else true

/-- `urlparse`, or nothing where it raises a `ValueError`. -/
def parse (parser : UrlParser) (url : List Char) : Option ParsedUrl :=
  let (scheme, rest) := splitScheme (clean url)
  let (netloc, rest) := splitNetloc rest
  if bracketsPass parser netloc && parser.checkNetloc netloc then
    let (rest, fragment) := partition '#' rest
    let (rest, query) := partition '?' rest
    let (path, params) := pathParams scheme rest
    some ⟨scheme, netloc, path, params, query, fragment⟩
  else none

/-- `_hostinfo`: the host and the text of the port. -/
def hostinfo (url : ParsedUrl) : List Char × List Char :=
  let info := afterLast '@' url.netloc
  if '[' ∈ info then
    let bracketed := partition ']' (partition '[' info).2
    (bracketed.1, (partition ':' bracketed.2).2)
  else partition ':' info

/-- `hostname`: in small letters up to a zone. -/
def hostname (parser : UrlParser) (url : ParsedUrl) : Option (List Char) :=
  let host := url.hostinfo.1
  if host = [] then none
  else some (parser.lower (host.takeWhile (· ≠ '%')) ++ host.dropWhile (· ≠ '%'))

def digitsValue (text : List Char) : ℕ :=
  text.foldl (fun value c => value * 10 + (c.toNat - '0'.toNat)) 0

/-- `port`: nothing without a text, an error if the text is no port. -/
def port (url : ParsedUrl) : Except Unit (Option ℕ) :=
  let text := url.hostinfo.2
  if text = [] then .ok none
  else if text.all Char.isDigit ∧ digitsValue text ≤ 65535 then .ok (some (digitsValue text))
  else .error ()

/-- `text.rstrip("/")`. -/
def stripSlashes (text : List Char) : List Char := (text.reverse.dropWhile (· = '/')).reverse

def Slashes (text : List Char) : Prop := ∀ c ∈ text, c = '/'

theorem exists_slashes (text : List Char) :
    ∃ slashes, text = stripSlashes text ++ slashes ∧ Slashes slashes := by
  refine ⟨(text.reverse.takeWhile (· = '/')).reverse, ?_, ?_⟩
  · rw [stripSlashes, ← List.reverse_append, List.takeWhile_append_dropWhile, List.reverse_reverse]
  · intro c hc
    have := List.mem_takeWhile_imp (List.mem_reverse.mp hc)
    simpa using this

variable {slashes text : List Char} {parser : UrlParser}

theorem clean_append (h : Slashes slashes) : clean (text ++ slashes) = clean text ++ slashes := by
  have hkept : slashes.dropWhile (fun c => decide (c.toNat ≤ 32)) = slashes := by
    cases slashes with
    | nil => rfl
    | cons c rest =>
      obtain rfl := h c List.mem_cons_self
      rfl
  have hfilter : slashes.filter (fun c => c.toNat ≠ 9 ∧ c.toNat ≠ 13 ∧ c.toNat ≠ 10) = slashes := by
    rw [List.filter_eq_self]
    intro c hc
    obtain rfl := h c hc
    decide
  unfold clean
  rw [List.dropWhile_append]
  split_ifs with hempty
  · rw [hkept, List.isEmpty_iff.mp hempty, List.filter_nil, List.nil_append, hfilter]
  · rw [List.filter_append, hfilter]

variable {p : Char → Bool} {rest host : List Char}

theorem takeWhile_append_of_mem
    (h : ∃ c ∈ text, ¬ p c) : (text ++ rest).takeWhile p = text.takeWhile p := by
  rw [List.takeWhile_append]
  rw [if_neg]
  intro hlength
  obtain ⟨c, hc, hp⟩ := h
  have hall : text.takeWhile p = text :=
    (List.takeWhile_prefix p).eq_of_length hlength
  rw [List.takeWhile_eq_self_iff] at hall
  exact hp (hall c hc)

theorem dropWhile_append_of_mem
    (h : ∃ c ∈ text, ¬ p c) : (text ++ rest).dropWhile p = text.dropWhile p ++ rest := by
  rw [List.dropWhile_append, if_neg]
  rw [List.isEmpty_iff, List.dropWhile_eq_nil_iff]
  obtain ⟨c, hc, hp⟩ := h
  exact fun hall => hp (hall c hc)

theorem splitScheme_append (h : (splitScheme text).1 ≠ []) :
    splitScheme (text ++ slashes) = ((splitScheme text).1, (splitScheme text).2 ++ slashes) := by
  unfold splitScheme at h ⊢
  dsimp only at h ⊢
  split_ifs at h with hscheme
  · have hcolon : ':' ∈ text := hscheme.1
    have htake : (text ++ slashes).takeWhile (· ≠ ':') = text.takeWhile (· ≠ ':') :=
      takeWhile_append_of_mem ⟨':', hcolon, by decide⟩
    have hlength : (text.takeWhile (· ≠ ':')).length + 1 ≤ text.length := by
      by_contra hlong
      have hall : text.takeWhile (· ≠ ':') = text :=
        (List.takeWhile_prefix _).eq_of_length
          (Nat.le_antisymm (List.takeWhile_prefix _).length_le (by omega))
      rw [List.takeWhile_eq_self_iff] at hall
      simpa using hall ':' hcolon
    rw [htake, if_pos hscheme, if_pos ⟨List.mem_append_left _ hcolon, hscheme.2⟩,
      List.drop_append_of_le_length hlength]
  · exact absurd rfl h

theorem splitNetloc_append (hslashes : Slashes slashes) (h : (splitNetloc text).1 ≠ []) :
    splitNetloc (text ++ slashes) = ((splitNetloc text).1, (splitNetloc text).2 ++ slashes) := by
  unfold splitNetloc at h ⊢
  split_ifs at h with hstart
  · rw [if_pos (hstart.trans (List.prefix_append _ _)), if_pos hstart,
      List.drop_append_of_le_length (by simpa using hstart.length_le)]
    dsimp only
    by_cases hdelimiter : ∃ c ∈ text.drop 2, ¬ (!isDelimiter c)
    · rw [takeWhile_append_of_mem hdelimiter, dropWhile_append_of_mem hdelimiter]
    · have hall : ∀ c ∈ text.drop 2, !isDelimiter c := by simpa using hdelimiter
      rw [List.takeWhile_append_of_pos hall, List.takeWhile_eq_self_iff.mpr hall,
        List.dropWhile_append_of_pos hall, List.dropWhile_eq_nil_iff.mpr hall, List.nil_append]
      cases slashes with
      | nil => simp
      | cons c rest =>
        obtain rfl := hslashes c List.mem_cons_self
        simp [isDelimiter]
  · exact absurd rfl h

theorem hostname_congr {url url' : ParsedUrl} (h : url.netloc = url'.netloc) :
    url.hostname parser = url'.hostname parser ∧ url.port = url'.port := by
  unfold hostname port hostinfo
  rw [h]
  exact ⟨rfl, rfl⟩

theorem netloc_ne_nil_of_hostname {url : ParsedUrl}
    (h : url.hostname parser = some host) : url.netloc ≠ [] := by
  intro hnil
  simp [hostname, hostinfo, hnil, afterLast, partition] at h

theorem Slashes.partition_append (h : Slashes slashes) (sep : Char)
    (text : List Char) (hsep : sep ≠ '/') : ∃ more, (partition sep (text ++ slashes)).1 = (partition sep text).1 ++ more ∧
      Slashes more := by
  by_cases hmem : sep ∈ text
  · refine ⟨[], ?_, nofun⟩
    rw [partition, partition, takeWhile_append_of_mem ⟨sep, hmem, by simp⟩, List.append_nil]
  · have hall : ∀ c ∈ text, decide (c ≠ sep) := by
      intro c hc
      exact decide_eq_true fun heq => hmem (heq ▸ hc)
    have hslashes : ∀ c ∈ slashes, decide (c ≠ sep) := by
      intro c hc
      rw [h c hc]
      exact decide_eq_true hsep.symm
    refine ⟨slashes, ?_, h⟩
    rw [partition, partition, List.takeWhile_append_of_pos hall,
      List.takeWhile_eq_self_iff.mpr hslashes, List.takeWhile_eq_self_iff.mpr hall]

theorem afterLast_suffix (sep : Char) (text : List Char) : afterLast sep text <:+ text := by
  rw [afterLast, ← List.reverse_prefix, List.reverse_reverse]
  exact List.takeWhile_prefix _

theorem splitParams_prefix (text : List Char) : (splitParams text).1 <+: text := by
  unfold splitParams
  dsimp only
  split_ifs
  · obtain ⟨front, hfront⟩ := afterLast_suffix '/' text
    have htake : text.take (text.length - (afterLast '/' text).length) = front := by
      rw [← congrArg List.length hfront, List.length_append, Nat.add_sub_cancel]
      conv_lhs => rw [← hfront]
      exact List.take_left
    rw [htake]
    conv_rhs => rw [← hfront]
    exact (List.prefix_append_right_inj front).mpr (List.takeWhile_prefix _)
  · exact List.prefix_refl _

theorem Slashes.splitParams_append (h : Slashes slashes)
    (hne : slashes ≠ []) : splitParams (text ++ slashes) = (text ++ slashes, []) := by
  have hlast : afterLast '/' (text ++ slashes) = [] := by
    obtain ⟨front, c, rfl⟩ := List.eq_nil_or_concat' slashes |>.resolve_left hne
    obtain rfl := h c (by simp)
    simp [afterLast]
  unfold splitParams
  dsimp only
  rw [hlast, if_neg (by simp)]

theorem pathParams_start (scheme rest : List Char) : (pathParams scheme rest).1 <+: rest := by
  unfold pathParams
  split_ifs
  · exact splitParams_prefix rest
  · exact List.prefix_refl rest

theorem Slashes.pathParams_append (scheme text : List Char)
    (h : Slashes slashes) : (pathParams scheme text).1 <+: (pathParams scheme (text ++ slashes)).1 := by
  by_cases hne : slashes = []
  · simp only [hne, List.append_nil, List.prefix_rfl]
  · have hpath : (pathParams scheme (text ++ slashes)).1 = text ++ slashes := by
      unfold pathParams
      split_ifs
      · rw [h.splitParams_append hne]
      · rfl
    rw [hpath]
    exact (pathParams_start scheme text).trans (List.prefix_append text slashes)

/-- A URL with a scheme and a host keeps both with its last slashes, and its path goes on from
the path without them. -/
theorem parse_of_parse_stripSlashes {url : List Char} {stripped full : ParsedUrl}
    (hstripped : parse parser (stripSlashes url) = some stripped)
    (hfull : parse parser url = some full) (hscheme : stripped.scheme ≠ [])
    (hhost : stripped.hostname parser = some host) :
    full.scheme = stripped.scheme ∧ full.netloc = stripped.netloc ∧ stripped.path <+: full.path := by
  obtain ⟨slashes, hsplit, hslashes⟩ := exists_slashes url
  have hnetloc := netloc_ne_nil_of_hostname hhost
  rw [hsplit] at hfull
  unfold parse at hstripped hfull
  dsimp only at hstripped hfull
  rw [clean_append hslashes] at hfull
  rw [Option.ite_none_right_eq_some] at hstripped
  obtain ⟨hpass, hstripped⟩ := hstripped
  obtain rfl := Option.some.inj hstripped
  dsimp only at hscheme hnetloc ⊢
  rw [splitScheme_append hscheme] at hfull
  dsimp only at hfull
  rw [splitNetloc_append hslashes hnetloc] at hfull
  dsimp only at hfull
  rw [if_pos hpass] at hfull
  obtain rfl := Option.some.inj hfull
  obtain ⟨more, hfragment, hmore⟩ := hslashes.partition_append '#' _ (by decide)
  obtain ⟨more, hquery, hmore⟩ := hmore.partition_append '?' _ (by decide)
  refine ⟨rfl, rfl, ?_⟩
  dsimp only
  rw [hfragment, hquery]
  exact hmore.pathParams_append _ _

/-- The texts between the slashes. -/
def components (path : List Char) : List (List Char) := path.splitOn '/'

/-- A path goes on from another by components if it is the other or goes on with a slash. -/
theorem components_prefix_iff {front path : List Char} :
    components front <+: components path ↔ path = front ∨ front ++ ['/'] <+: path := by
  constructor
  · rintro ⟨rest, hrest⟩
    have hpath : ['/'].intercalate (components path) = path := List.intercalate_splitOn '/'
    have hfront : ['/'].intercalate (components front) = front := List.intercalate_splitOn '/'
    rw [← hrest] at hpath
    by_cases hnil : rest = []
    · rw [hnil, List.append_nil, hfront] at hpath
      exact .inl hpath.symm
    · have hne : components front ≠ [] := List.splitOn_ne_nil '/' front
      rw [intercalate_append hne hnil, hfront] at hpath
      exact .inr ⟨_, hpath⟩
  · rintro (rfl | ⟨rest, rfl⟩)
    · exact List.prefix_refl _
    · rw [components, components, List.append_assoc, List.singleton_append,
        List.splitOn_append_cons_self]
      exact List.prefix_append _ _

end ParsedUrl
end CodeResearch
