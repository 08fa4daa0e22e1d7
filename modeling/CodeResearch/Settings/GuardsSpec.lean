import CodeResearch.Settings.SsrfGuard

/-!
# What the guards let through

The origin of an accepted base URL, the addresses behind it, and the addresses the downloader
connects to.
-/
namespace CodeResearch.Settings

open ParsedUrl

/-- `fd00:ec2::254`, the metadata service of AWS in the second family. -/
def awsMetadata6 : ℕ := 0xfd000ec2 * 2 ^ 96 + 0x254

/-- A metadata address in any form: of either family, or one of the first family written in the
second. -/
def isMetadata : Address → Bool
  | .v4 ip => ip.val ∈ metadata4
  | .v6 ip =>
    ip.val = awsMetadata6 ∨ ip.val ∈ metadata4 ∨ ip.val ∈ metadata4.map (0xffff * 2 ^ 32 + ·)

def isSpecial (ip : Address) : Bool :=
  ip.isLoopback || ip.isPrivate || ip.isLinkLocal || ip.isMulticast || ip.isReserved ||
    ip.isUnspecified

def isPrivateMetadata : Address → Bool
  | .v4 _ => false
  | .v6 ip => ip.val = awsMetadata6 ∨ ip.val = 0xffff * 2 ^ 32 + 0xa9fea9fe

/-- The addresses that only the guard of base URLs refuses: one of the metadata addresses, and
what is multicast or reserved and not private. -/
def isUnblocked : Address → Bool
  | .v4 ip => ip.val = 0x646464c8 || (Address.v4 ip).isMulticast
  | .v6 ip =>
    (Address.v6 ip).isMulticast || (Address.v6 ip).isReserved && !(Address.v6 ip).isPrivate

theorem validateIp_eq_ok_iff (ip : Address) (allowLocalEndpoint : Bool) :
    validateIp ip allowLocalEndpoint = .ok () ↔ isListedMetadata ip = false ∧
      (allowLocalEndpoint = true ∧ (ip.isLoopback = true ∨ ip.isPrivate = true) ∨
        isSpecial ip = false) := by
  have hspecial : (ip.isLoopback ∨ ip.isPrivate ∨ ip.isLinkLocal ∨ ip.isMulticast ∨
      ip.isReserved ∨ ip.isUnspecified) ↔ isSpecial ip = true := by
    simp only [isSpecial, Bool.or_eq_true, or_assoc]
  unfold validateIp
  simp only [hspecial]
  split_ifs with hlisted hlocal hclass
  · simp [hlisted]
  · simp [hlisted, hlocal]
  · simp [hlocal, hclass]
  · simp [hlisted, hclass]

variable {ip : Address}

/-- Each form of a metadata address is listed, private or reserved. -/
theorem isSpecial_of_isMetadata (h : isMetadata ip = true) (hlisted : isListedMetadata ip = false) :
    isSpecial ip = true ∧ (ip.isLoopback = true ∨ ip.isPrivate = true ↔
      isPrivateMetadata ip = true) := by
  cases ip with
  | v4 ip =>
    rw [isMetadata, ← isListedMetadata, hlisted] at h
    exact absurd h (by decide)
  | v6 ip =>
    simp only [isMetadata, metadata4, List.map_cons, List.map_nil, List.mem_cons,
      List.not_mem_nil, or_false, decide_eq_true_eq] at h
    rcases h with h | (h | h) | (h | h)
    all_goals
      obtain ⟨ip, hlt⟩ := ip
      dsimp only at h
      subst h
      revert hlt
      decide +kernel

/-- An address a provider may be reached at. -/
structure Reachable (allowLocalEndpoint : Bool) (ip : Address) : Prop where
  metadata : isMetadata ip = false
  isGlobal : allowLocalEndpoint = false → isSpecial ip = false

theorem isMetadata_of_isPrivateMetadata (h : isPrivateMetadata ip = true) :
    isMetadata ip = true := by
  cases ip with
  | v4 ip => exact absurd h Bool.false_ne_true
  | v6 ip =>
    rcases of_decide_eq_true h with h | h
    · exact decide_eq_true (.inl h)
    · exact decide_eq_true (.inr (.inr (by rw [h]; exact List.mem_cons_self)))

theorem reachable_iff {allowLocalEndpoint : Bool} (h : validateIp ip allowLocalEndpoint = .ok ()) :
    Reachable allowLocalEndpoint ip ↔
      (allowLocalEndpoint = true → isPrivateMetadata ip = false) := by
  obtain ⟨hlisted, hclass⟩ := (validateIp_eq_ok_iff ip allowLocalEndpoint).mp h
  constructor
  · intro hreach _
    by_contra hprivate
    rw [Bool.not_eq_false] at hprivate
    have hmetadata := hreach.metadata
    rw [isMetadata_of_isPrivateMetadata hprivate] at hmetadata
    exact absurd hmetadata (by decide)
  · intro hprivate
    refine ⟨?_, fun hlocal => ?_⟩
    · by_contra hmetadata
      rw [Bool.not_eq_false] at hmetadata
      obtain ⟨hspecial, hforms⟩ := isSpecial_of_isMetadata hmetadata hlisted
      rcases hclass with ⟨hlocal, hloop⟩ | hnone
      · rw [hprivate hlocal] at hforms
        exact absurd (hforms.mp hloop) (by decide)
      · rw [hspecial] at hnone
        exact absurd hnone (by decide)
    · rcases hclass with ⟨hallowed, _⟩ | hnone
      · rw [hlocal] at hallowed
        exact absurd hallowed (by decide)
      · exact hnone

theorem isBlockedAddress_v4 (ip : Fin (2 ^ 32)) :
    isBlockedAddress (.v4 ip) = Address.isPrivate4 ip := by
  have hblocked : ∀ n ∈ blockedNetworks4, n ∈ Address.privateNetworks4 ∧
      Network.apart 32 n Address.privateExceptions4 = true := by decide +kernel
  have hprivate : ∀ n ∈ blockedNetworks4, n.contains 32 ip = true →
      Address.isPrivate4 ip = true := fun n hn h =>
    Address.isPrivate4_of_contains (hblocked n hn).1 (hblocked n hn).2 h
  rw [Bool.eq_iff_iff]
  simp only [isBlockedAddress, Address.isPrivate, Address.isLoopback, Address.isLinkLocal,
    inBlockedNetwork, Bool.or_eq_true, List.any_eq_true]
  constructor
  · rintro (((h | h) | h) | ⟨n, hn, h⟩)
    · exact h
    · exact hprivate _ (by decide) h
    · exact hprivate _ (by decide) h
    · exact hprivate n hn h
  · exact fun h => .inl (.inl (.inl h))

theorem isPrivate_of_loopback : Address.isPrivate (.v6 1) = true := by decide +kernel

theorem isBlockedAddress_v6 (ip : Fin (2 ^ 128)) : isBlockedAddress (.v6 ip) =
    ((Address.v6 ip).isPrivate || (Address.v6 ip).isLinkLocal) := by
  have hloop : ip.val = 1 → (Address.v6 ip).isPrivate = true := by
    intro h
    obtain rfl : ip = 1 := Fin.ext h
    exact isPrivate_of_loopback
  rw [Bool.eq_iff_iff]
  simp only [isBlockedAddress, inBlockedNetwork, blockedNetworks6, Bool.or_eq_true, List.any_cons,
    List.any_nil, Bool.or_false]
  constructor
  · rintro (((h | h) | h) | h | h | h)
    · exact .inl h
    · exact .inl (hloop (of_decide_eq_true h))
    · exact .inr h
    · refine .inl (hloop ?_)
      simpa [Network.contains] using h
    · exact .inl (Address.isPrivate_v6_of_contains (n := .v6 0xfc00 0 0 0 7) (by decide)
        (by decide +kernel) h)
    · exact .inr h
  · rintro (h | h)
    · exact .inl (.inl (.inl h))
    · exact .inl (.inr h)

theorem validateIp_ne_ok_iff (ip : Address) : validateIp ip false ≠ .ok () ↔
    isListedMetadata ip = true ∨ isSpecial ip = true := by
  rw [ne_eq, validateIp_eq_ok_iff]
  cases isListedMetadata ip <;> cases isSpecial ip <;> simp

theorem refused_and_not_blocked_v4 (ip : Fin (2 ^ 32)) :
    (isListedMetadata (.v4 ip) = true ∨ isSpecial (.v4 ip) = true) ∧
      isBlockedAddress (.v4 ip) = false ↔ isUnblocked (.v4 ip) = true := by
  have hprivate : ∀ n : Network, n ∈ Address.privateNetworks4 →
      Network.apart 32 n Address.privateExceptions4 = true → n.contains 32 ip = true →
      Address.isPrivate4 ip = true := fun n hn hapart h =>
    Address.isPrivate4_of_contains hn hapart h
  rw [isBlockedAddress_v4]
  simp only [isListedMetadata, metadata4, isSpecial, isUnblocked, Address.isPrivate,
    Bool.or_eq_true, decide_eq_true_eq, List.mem_cons, List.not_mem_nil, or_false]
  constructor
  · rintro ⟨hclass, hnot⟩
    have hfalse : Address.isPrivate4 ip ≠ true := by rw [hnot]; decide
    rcases hclass with (h | h) | ((((h | h) | h) | h) | h) | h
    · refine absurd ?_ hfalse
      rw [h]
      decide +kernel
    · exact .inl h
    · exact absurd (hprivate _ (by decide) (by decide +kernel) h) hfalse
    · exact absurd h hfalse
    · exact absurd (hprivate _ (by decide) (by decide +kernel) h) hfalse
    · exact .inr h
    · exact absurd (hprivate _ (by decide) (by decide +kernel) h) hfalse
    · refine absurd ?_ hfalse
      rw [of_decide_eq_true h]
      decide +kernel
  · rintro (h | h)
    · refine ⟨.inl (.inr h), ?_⟩
      rw [h]
      decide +kernel
    · exact ⟨.inr (.inl (.inl (.inr h))), Address.not_isPrivate4_of_contains (by decide +kernel) h⟩

theorem reserved_apart_linkLocal : ∀ n ∈ Address.reservedNetworks6,
    Network.apart 128 n [.v6 0xfe80 0 0 0 10] = true := by
  decide +kernel

theorem isLinkLocal_of_contains {n : Network} {ip : Fin (2 ^ 128)}
    (hapart : Network.apart 128 n [.v6 0xfe80 0 0 0 10]) (h : n.contains 128 ip) :
    (Address.v6 ip).isLinkLocal = false := by
  have hnone := Network.any_contains_of_apart hapart h
  rwa [List.any_cons, List.any_nil, Bool.or_false] at hnone

theorem refused_and_not_blocked_v6 (ip : Fin (2 ^ 128)) :
    (isListedMetadata (.v6 ip) = true ∨ isSpecial (.v6 ip) = true) ∧
      isBlockedAddress (.v6 ip) = false ↔ isUnblocked (.v6 ip) = true := by
  rw [isBlockedAddress_v6, Bool.or_eq_false_iff]
  simp only [isListedMetadata, isSpecial, isUnblocked, Bool.or_eq_true, Bool.and_eq_true,
    Bool.not_eq_true', Bool.false_eq_true, false_or]
  constructor
  · rintro ⟨((((h | h) | h) | h) | h) | h, hprivate, hlink⟩
    · obtain rfl : ip = 1 := Fin.ext (of_decide_eq_true h)
      rw [isPrivate_of_loopback] at hprivate
      exact absurd hprivate (by decide)
    · rw [h] at hprivate
      exact absurd hprivate (by decide)
    · rw [h] at hlink
      exact absurd hlink (by decide)
    · exact .inl h
    · exact .inr ⟨h, hprivate⟩
    · obtain rfl : ip = 0 := Fin.ext (of_decide_eq_true h)
      exact absurd hprivate (by decide +kernel)
  · rintro (h | ⟨hreserved, hprivate⟩)
    · exact ⟨.inl (.inl (.inr h)),
        Address.not_isPrivate_v6_of_contains (by decide +kernel) h (by decide +kernel),
        isLinkLocal_of_contains (by decide +kernel) h⟩
    · obtain ⟨n, hn, h⟩ := List.any_eq_true.mp hreserved
      exact ⟨.inl (.inr hreserved), hprivate,
        isLinkLocal_of_contains (reserved_apart_linkLocal n hn) h⟩

theorem refused_and_not_blocked_iff (ip : Address) :
    validateIp ip false ≠ .ok () ∧ isBlockedAddress ip = false ↔ isUnblocked ip = true := by
  rw [validateIp_ne_ok_iff]
  cases ip with
  | v4 ip => exact refused_and_not_blocked_v4 ip
  | v6 ip => exact refused_and_not_blocked_v6 ip

/-- What all official base URLs have in common. -/
structure IsOfficial (parser : UrlParser) (text : List Char) (url : ParsedUrl) : Prop where
  stripped : stripSlashes text = text
  parsed : ParsedUrl.parse parser text = if parser.checkNetloc url.netloc then some url else none
  scheme : url.scheme = "https".toList
  host : url.hostinfo.1 ≠ []
  port : url.port = .ok none
  path : url.path.length ≠ 1

variable {provider : String} {text baseUrl : List Char} {url : ParsedUrl} {names : Names}

theorem exists_isOfficial (parser : UrlParser)
    (h : official provider = some text) : ∃ url, IsOfficial parser text url := by
  obtain ⟨s, hs, rfl⟩ := Option.map_eq_some_iff.mp h
  have hmem : s ∈ officialBaseUrls.map Prod.snd := by
    obtain ⟨front, back, hsplit, -⟩ := List.lookup_eq_some_iff.mp hs
    rw [hsplit]
    simp
  simp only [officialBaseUrls, List.map_cons, List.map_nil, List.mem_cons, List.not_mem_nil,
    or_false] at hmem
  rcases hmem with rfl | rfl | rfl | rfl | rfl | rfl
  · exact ⟨⟨"https".toList, "api.deepseek.com".toList, [], [], [], []⟩, by decide +kernel, rfl, rfl,
      by decide, rfl, by decide⟩
  · exact ⟨⟨"https".toList, "dashscope.aliyuncs.com".toList, "/compatible-mode/v1".toList, [], [],
      []⟩, by decide +kernel, rfl, rfl, by decide, rfl, by decide⟩
  · exact ⟨⟨"https".toList, "dashscope.aliyuncs.com".toList, "/compatible-mode/v1".toList, [], [],
      []⟩, by decide +kernel, rfl, rfl, by decide, rfl, by decide⟩
  · exact ⟨⟨"https".toList, "open.bigmodel.cn".toList, "/api/paas/v4".toList, [], [], []⟩,
      by decide +kernel, rfl, rfl, by decide, rfl, by decide⟩
  · exact ⟨⟨"https".toList, "dashscope.aliyuncs.com".toList, [], [], [], []⟩, by decide +kernel, rfl,
      rfl, by decide, rfl, by decide⟩
  · exact ⟨⟨"https".toList, "ark.cn-beijing.volces.com".toList, "/api/v3".toList, [], [], []⟩,
      by decide +kernel, rfl, rfl, by decide, rfl, by decide⟩

/-- The origin of a URL is that of an official one, and its path is at or below the official
one by components. -/
structure AtOfficial (parser : UrlParser) (url official : ParsedUrl) : Prop where
  scheme : url.scheme = official.scheme
  host : url.hostname parser = official.hostname parser
  port : effectivePort url = effectivePort official
  path : components official.path <+: components url.path

def NamesHttpsPort (url : ParsedUrl) : Prop :=
  url.port = .ok none ∨ url.port = .ok (some 0) ∨ url.port = .ok (some 443)

def GoesOnWithSlash (url official : ParsedUrl) : Prop :=
  ∀ c ∈ (url.path.drop official.path.length).head?, c = '/'

theorem effectivePort_eq_iff (hscheme : url.scheme = "https".toList) :
    effectivePort url = .ok 443 ↔ NamesHttpsPort url := by
  unfold effectivePort NamesHttpsPort
  rw [hscheme]
  cases url.port with
  | error e => simp
  | ok port =>
    cases port with
    | none => simp
    | some port =>
      by_cases hzero : port = 0
      · simp [hzero]
      · simp [hzero]

theorem components_prefix_iff_head {official : ParsedUrl} (h : official.path <+: url.path) :
    components official.path <+: components url.path ↔ GoesOnWithSlash url official := by
  obtain ⟨rest, hrest⟩ := h
  rw [components_prefix_iff, GoesOnWithSlash, ← hrest, List.drop_left]
  cases rest with
  | nil => simp
  | cons c rest => simp [List.prefix_append_right_inj, List.cons_prefix_cons, eq_comm]

theorem exists_hostname (parser : UrlParser)
    (h : IsOfficial parser text url) : ∃ host, url.hostname parser = some host := by
  unfold hostname
  dsimp only
  rw [if_neg h.host]
  exact ⟨_, rfl⟩

theorem prefix_of_orSlash {front path : List Char} (hlength : front.length ≠ 1)
    (h : orSlash front <+: orSlash path) : front <+: path := by
  unfold orSlash at h
  split_ifs at h with hfront hpath hpath
  · rw [hfront]
    exact List.nil_prefix
  · rw [hfront]
    exact List.nil_prefix
  · have hle := h.length_le
    have hpos := List.length_pos_of_ne_nil hfront
    rw [List.length_singleton] at hle
    exact absurd (Nat.le_antisymm hle hpos) hlength
  · exact h

/-- What an accepted base URL without an allowance has in common with the official one. -/
theorem sameOrigin_of_eq_ok {value : List Char} {full o : ParsedUrl}
    (ho : IsOfficial names.urls text o) (hfull : parse names.urls value = some full)
    (h : sameOriginOrPath names value text = .ok true) :
    parse names.urls text = some o ∧ full.scheme = o.scheme ∧
      full.hostname names.urls = o.hostname names.urls ∧ o.path <+: full.path := by
  unfold sameOriginOrPath parseUrl at h
  rw [ho.stripped] at h
  simp only [except_bind_eq_ok_iff, orError_eq_ok_iff, except_pure_eq_ok_iff,
    decide_eq_true_eq] at h
  obtain ⟨v, hv, po, hpo, hscheme, hhost, hpath⟩ := h
  obtain rfl : o = po := by
    have hparsed := ho.parsed
    rw [hpo] at hparsed
    exact Option.some.inj (Option.ite_none_right_eq_some.mp hparsed.symm).2
  obtain ⟨host, hohost⟩ := exists_hostname names.urls ho
  rw [hohost] at hhost
  have hne : v.scheme ≠ [] := by
    rw [hscheme, ho.scheme]
    decide
  obtain ⟨hfs, hfn, hfp⟩ := parse_of_parse_stripSlashes hv hfull hne hhost
  refine ⟨hpo, hfs.trans hscheme, ?_, ?_⟩
  · rw [(hostname_congr hfn).1, hhost, hohost]
  · exact (prefix_of_orSlash ho.path hpath).trans hfp

/-- What the guard has seen of a base URL it accepts. -/
structure Accepted (names : Names) (provider : String) (baseUrl : List Char) (allow : Allowances)
    (url : ParsedUrl) (host : List Char) : Prop where
  parsed : parse names.urls baseUrl = some url
  scheme : url.scheme = "https".toList ∨ allow.localEndpoint = true
  hostname : url.hostname names.urls = some host
  origin : ∀ text, official provider = some text → allow.customBaseUrl = false →
    sameOriginOrPath names baseUrl text = .ok true
  dns : allow.resolveDns = true → ∃ port ips, effectivePort url = .ok port ∧
    names.resolve host port = some ips ∧ ∀ ip ∈ ips, validateIp ip allow.localEndpoint = .ok ()

theorem checkOrigin_eq_ok
    (h : checkOrigin names provider baseUrl false = .ok ()) (htext : official provider = some text) :
    sameOriginOrPath names baseUrl text = .ok true := by
  unfold checkOrigin at h
  rw [htext] at h
  obtain ⟨same, hsame, hensure⟩ := except_bind_eq_ok_iff.mp h
  rw [ensure_eq_ok_iff] at hensure
  rw [hsame, hensure.resolve_right Bool.false_ne_true]

theorem exists_accepted
    {allow : Allowances} (h : validateBaseUrl names provider baseUrl allow = .ok ()) :
    ∃ url host, Accepted names provider baseUrl allow url host := by
  unfold validateBaseUrl parseUrl at h
  simp only [except_bind_eq_ok_iff, orError_eq_ok_iff, ensure_eq_ok_iff] at h
  obtain ⟨url, hurl, _, _, _, hscheme, host, hhost, _, horigin, _, _, hdns⟩ := h
  refine ⟨url, host, hurl, hscheme, hhost, ?_, ?_⟩
  · intro text htext hcustom
    rw [hcustom] at horigin
    exact checkOrigin_eq_ok horigin htext
  · intro hresolve
    rw [if_pos hresolve] at hdns
    obtain ⟨port, hport, hdns⟩ := except_bind_eq_ok_iff.mp hdns
    obtain ⟨ips, hips, hall⟩ := except_bind_eq_ok_iff.mp hdns
    rw [orError_eq_ok_iff] at hips
    exact ⟨port, ips, hport, hips, except_forM_eq_ok_iff.mp hall⟩

namespace SafeImageDownloader

variable {d : SafeImageDownloader}

variable {url : List Char}

/-- Only what `_validate_url` lets pass is requested. -/
theorem validateUrl_of_requested {hops : ℕ} {hop : List Char}
    (h : hop ∈ (d.downloadFrom hops url).1) : d.validateUrl hop = .ok () := by
  induction hops generalizing url with
  | zero => exact absurd h (List.not_mem_nil)
  | succ hops ih =>
    unfold downloadFrom at h
    cases hvalid : d.validateUrl url with
    | error e =>
      rw [hvalid] at h
      exact absurd h (List.not_mem_nil)
    | ok u =>
      rw [hvalid] at h
      cases hget : d.client.get url with
      | none =>
        rw [hget] at h
        rwa [List.mem_singleton.mp h]
      | some response =>
        rw [hget] at h
        dsimp only at h
        cases hreceive : d.receive url response with
        | error e =>
          rw [hreceive] at h
          rwa [List.mem_singleton.mp h]
        | ok received =>
          rw [hreceive] at h
          cases received with
          | inl image => rwa [List.mem_singleton.mp h]
          | inr next =>
            rcases List.mem_cons.mp h with rfl | hrest
            · exact hvalid
            · exact ih hrest

theorem not_isBlocked_of_validateUrl {ips : List Address}
    (h : d.validateUrl url = .ok ()) (hips : d.addresses url = some ips) :
    ∀ ip ∈ ips, isBlockedAddress ip = false := by
  unfold validateUrl at h
  simp only [except_bind_eq_ok_iff, orError_eq_ok_iff, ensure_eq_ok_iff, hips] at h
  obtain ⟨_, _, _, _, _, _, _, hseen, hnone⟩ := h
  obtain rfl := Option.some.inj hseen
  intro ip hip
  simpa using List.any_eq_false.mp hnone ip hip

end SafeImageDownloader

def BlockedOnEveryHop (ip : Address) : Prop :=
  ∀ (d : SafeImageDownloader) (url : List Char), ∀ hop ∈ (d.download url).1,
    ∀ ips, d.addresses hop = some ips → ip ∉ ips

/-- A world in which every host has one address. -/
def oneAddress (ip : Address) : Names where
  urls := ⟨id, fun _ => true, fun _ => true⟩
  address _ := none
  tidy := id
  resolve _ _ := some [ip]

def oneHost (ip : Address) : SafeImageDownloader where
  names := oneAddress ip
  client := ⟨fun _ => none, fun _ _ => none⟩
  allowedDomains := ["images.test".toList]
  maxBytes := 0

theorem mem_download_oneHost (h : isBlockedAddress ip = false) :
    "https://images.test/a".toList ∈ ((oneHost ip).download "https://images.test/a".toList).1 := by
  have hvalid : (oneHost ip).validateUrl "https://images.test/a".toList = .ok () := by
    have hnone : [ip].any isBlockedAddress = false := by simp [h]
    change ensure ([ip].any isBlockedAddress = false) _ = .ok ()
    rw [ensure_eq_ok_iff]
    exact hnone
  unfold SafeImageDownloader.download SafeImageDownloader.downloadFrom
  rw [hvalid]
  exact List.mem_cons_self

theorem blockedOnEveryHop_iff (ip : Address) :
    (validateIp ip false ≠ .ok () → BlockedOnEveryHop ip) ↔ isUnblocked ip = false := by
  constructor
  · intro h
    by_contra hgap
    obtain ⟨hrefused, hnot⟩ := (refused_and_not_blocked_iff ip).mpr (Bool.not_eq_false _ ▸ hgap)
    exact h hrefused (oneHost ip) _ _ (mem_download_oneHost hnot) [ip] rfl List.mem_cons_self
  · intro hgap hrefused d url hop hhop ips hips hip
    have hnot := SafeImageDownloader.not_isBlocked_of_validateUrl
      (SafeImageDownloader.validateUrl_of_requested hhop) hips ip hip
    have hunblocked := (refused_and_not_blocked_iff ip).mp ⟨hrefused, hnot⟩
    rw [hgap] at hunblocked
    exact absurd hunblocked Bool.false_ne_true

/-- An accepted base URL is at the official one exactly if it names no other port and goes on
after the official path with a slash; the addresses behind it may be reached exactly if, with a
local endpoint allowed, none is a metadata address that counts as private; and the downloader
blocks the refused addresses other than those of `isUnblocked`. -/
theorem guards_iff (names : Names) (provider : String) (baseUrl : List Char)
    (allow : Allowances) (ip : Address) :
    (validateBaseUrl names provider baseUrl allow = .ok () → allow.customBaseUrl = false →
      ∀ text, official provider = some text →
      ∃ url o, parse names.urls baseUrl = some url ∧ parse names.urls text = some o ∧
        (AtOfficial names.urls url o ↔ NamesHttpsPort url ∧ GoesOnWithSlash url o)) ∧
    (validateBaseUrl names provider baseUrl allow = .ok () → allow.resolveDns = true →
      ∃ url host port ips, parse names.urls baseUrl = some url ∧
        url.hostname names.urls = some host ∧ effectivePort url = .ok port ∧
        names.resolve host port = some ips ∧
        ((∀ ip ∈ ips, Reachable allow.localEndpoint ip) ↔
          (allow.localEndpoint = true → ∀ ip ∈ ips, isPrivateMetadata ip = false))) ∧
    ((validateIp ip false ≠ .ok () → BlockedOnEveryHop ip) ↔ isUnblocked ip = false) := by
  refine ⟨?_, ?_, blockedOnEveryHop_iff ip⟩
  · intro h hcustom text htext
    obtain ⟨url, host, haccepted⟩ := exists_accepted h
    obtain ⟨o, ho⟩ := exists_isOfficial names.urls htext
    obtain ⟨hparsed, hscheme, hhost, hpath⟩ :=
      sameOrigin_of_eq_ok ho haccepted.parsed (haccepted.origin text htext hcustom)
    have hport : effectivePort o = .ok 443 := (effectivePort_eq_iff ho.scheme).mpr (.inl ho.port)
    refine ⟨url, o, haccepted.parsed, hparsed, ?_⟩
    rw [← effectivePort_eq_iff (hscheme.trans ho.scheme), ← components_prefix_iff_head hpath]
    constructor
    · exact fun hat => ⟨hat.port.trans hport, hat.path⟩
    · exact fun ⟨hsame, hbelow⟩ => ⟨hscheme, hhost, hsame.trans hport.symm, hbelow⟩
  · intro h hresolve
    obtain ⟨url, host, haccepted⟩ := exists_accepted h
    obtain ⟨port, ips, hport, hips, hall⟩ := haccepted.dns hresolve
    refine ⟨url, host, port, ips, haccepted.parsed, haccepted.hostname, hport, hips, ?_⟩
    constructor
    · intro hreach hlocal ip hip
      exact (reachable_iff (hall ip hip)).mp (hreach ip hip) hlocal
    · intro hnone ip hip
      exact (reachable_iff (hall ip hip)).mpr fun hlocal => hnone hlocal ip hip

/-- `::ffff:169.254.169.254`. -/
def mappedMetadata : Address := .v6 0xffffa9fea9fe

/-- A path that only starts with the letters of the official one is accepted, and so is, with a
local endpoint allowed, a host at the mapped form of a metadata address. -/
theorem sibling_path_and_mapped_metadata_accepted :
    (let names := oneAddress mappedMetadata
    let baseUrl := "https://ark.cn-beijing.volces.com/api/v3evil".toList
    validateBaseUrl names "seedream" baseUrl {} = .ok () ∧
      ∃ text url o, official "seedream" = some text ∧ parse names.urls baseUrl = some url ∧
        parse names.urls text = some o ∧ ¬ AtOfficial names.urls url o) ∧
    validateBaseUrl (oneAddress mappedMetadata) "local" "https://metadata.test".toList
        { localEndpoint := true, resolveDns := true } = .ok () ∧
      (oneAddress mappedMetadata).resolve "metadata.test".toList 443 = some [mappedMetadata] ∧
      isMetadata mappedMetadata = true := by
  refine ⟨⟨by decide +kernel, _, _, _, rfl, rfl, rfl, ?_⟩, by decide +kernel, rfl,
    by decide +kernel⟩
  intro hat
  exact absurd hat.path (by decide +kernel)

/-- A URL below the official path is accepted with the official origin. -/
theorem guards_at_official_url :
    ∃ url o, parse (oneAddress mappedMetadata).urls
        "https://ark.cn-beijing.volces.com/api/v3/images".toList = some url ∧
      parse (oneAddress mappedMetadata).urls
        "https://ark.cn-beijing.volces.com/api/v3".toList = some o ∧
      (AtOfficial (oneAddress mappedMetadata).urls url o ↔
        NamesHttpsPort url ∧ GoesOnWithSlash url o) :=
  (guards_iff (oneAddress mappedMetadata) "seedream"
    "https://ark.cn-beijing.volces.com/api/v3/images".toList {} mappedMetadata).1
    (by decide +kernel) rfl _ rfl

end CodeResearch.Settings
