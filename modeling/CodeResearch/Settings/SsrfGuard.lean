import CodeResearch.Library.Address
import CodeResearch.Library.Result
import CodeResearch.Library.Url

/-!
# Guards on outgoing URLs

`settings/ssrf_guard.py` looks at the base URL of a provider before it is stored or called, and
`image_generation/downloader.py` at every URL an image is loaded from.
-/
namespace CodeResearch.Settings

/-- What both guards take from the interpreter and from name resolution. -/
structure Names where
  urls : UrlParser
  /-- `ipaddress.ip_address`, with nothing where it raises. -/
  address : List Char → Option Address
  /-- `str.strip` and then `str.lower`. -/
  tidy : List Char → List Char
  /-- `socket.getaddrinfo`, with nothing where it raises. -/
  resolve : List Char → ℕ → Option (List Address)

def officialBaseUrls : List (String × String) :=
  [("deepseek", "https://api.deepseek.com"),
    ("qwen", "https://dashscope.aliyuncs.com/compatible-mode/v1"),
    ("qwen_vl", "https://dashscope.aliyuncs.com/compatible-mode/v1"),
    ("glm_v", "https://open.bigmodel.cn/api/paas/v4"),
    ("qwen_image", "https://dashscope.aliyuncs.com"),
    ("seedream", "https://ark.cn-beijing.volces.com/api/v3")]

def official (provider : String) : Option (List Char) :=
  (officialBaseUrls.lookup provider).map String.toList

/-- `169.254.169.254` and `100.100.100.200`. -/
def metadata4 : List ℕ := [0xa9fea9fe, 0x646464c8]

/-- `METADATA_IPS`. -/
def isListedMetadata : Address → Bool
  | .v4 ip => ip.val ∈ metadata4
  | .v6 _ => false

/-- A `ValueError` of the guard. -/
inductive GuardError where
  /-- `urlparse` raises. -/
  | unparsable
  /-- The port is no number or out of range. -/
  | port
  | refused (message : String)
deriving DecidableEq

def validateIp (ip : Address) (allowLocalEndpoint : Bool) : Except GuardError Unit :=
  if isListedMetadata ip then .error (.refused "Cloud metadata addresses are blocked.")
  else if allowLocalEndpoint ∧ (ip.isLoopback ∨ ip.isPrivate) then .ok ()
  else if ip.isLoopback ∨ ip.isPrivate ∨ ip.isLinkLocal ∨ ip.isMulticast ∨ ip.isReserved ∨
      ip.isUnspecified then
    .error (.refused "Private, loopback, link-local, and reserved addresses are blocked.")
  else .ok ()

def parseUrl (names : Names) (url : List Char) : Except GuardError ParsedUrl :=
  orError .unparsable (ParsedUrl.parse names.urls url)

/-- `path or "/"`. -/
def orSlash (path : List Char) : List Char := if path = [] then ['/'] else path

/-- `_same_origin_or_path`. -/
def sameOriginOrPath (names : Names) (value official : List Char) : Except GuardError Bool := do
  let parsedValue ← parseUrl names (ParsedUrl.stripSlashes value)
  let parsedOfficial ← parseUrl names (ParsedUrl.stripSlashes official)
  return parsedValue.scheme = parsedOfficial.scheme ∧
    parsedValue.hostname names.urls = parsedOfficial.hostname names.urls ∧
    orSlash parsedOfficial.path <+: orSlash parsedValue.path

/-- `_validate_host`. -/
def validateHost (names : Names) (hostname : List Char) (allowLocalEndpoint : Bool) :
    Except GuardError Unit :=
  let lowered := names.tidy hostname
  if lowered = "localhost".toList ∧ ¬ allowLocalEndpoint then
    .error (.refused "Localhost Base URL is blocked by default.")
  else match names.address lowered with
    | none => .ok ()
    | some ip => validateIp ip allowLocalEndpoint

/-- `_validate_dns`. -/
def validateDns (names : Names) (hostname : List Char) (port : ℕ) (allowLocalEndpoint : Bool) :
    Except GuardError Unit := do
  let ips ← orError (.refused "Base URL host could not be resolved.") (names.resolve hostname port)
  ips.forM fun ip => validateIp ip allowLocalEndpoint

/-- The port a URL is served on: its own one, unless it is missing or zero. -/
def effectivePort (url : ParsedUrl) : Except GuardError ℕ :=
  match url.port with
  | .error () => .error .port
  | .ok port =>
    .ok (if port.getD 0 ≠ 0 then port.getD 0
      else if url.scheme = "https".toList then 443 else 80)

structure Allowances where
  customBaseUrl : Bool := false
  localEndpoint : Bool := false
  resolveDns : Bool := false

def checkOrigin (names : Names) (provider : String) (baseUrl : List Char)
    (allowCustomBaseUrl : Bool) : Except GuardError Unit :=
  match official provider with
  | none => .ok ()
  | some official => do
    let same ← sameOriginOrPath names baseUrl official
    ensure (same = true ∨ allowCustomBaseUrl = true)
      (.refused "Custom Base URL requires explicit advanced authorization.")

def validateBaseUrl (names : Names) (provider : String) (baseUrl : List Char)
    (allow : Allowances) : Except GuardError Unit := do
  let parsed ← parseUrl names baseUrl
  ensure (parsed.scheme = "https".toList ∨ parsed.scheme = "http".toList)
    (.refused "Base URL must use https.")
  ensure (parsed.scheme = "https".toList ∨ allow.localEndpoint = true)
    (.refused "Base URL must use https unless a local endpoint is explicitly allowed.")
  let hostname ← orError (.refused "Base URL host is required.") (parsed.hostname names.urls)
  checkOrigin names provider baseUrl allow.customBaseUrl
  validateHost names hostname allow.localEndpoint
  if allow.resolveDns then do
    let port ← effectivePort parsed
    validateDns names hostname port allow.localEndpoint
  else .ok ()

def blockedNetworks4 : List Network :=
  [.v4 0 0 0 0 8, .v4 10 0 0 0 8, .v4 127 0 0 0 8, .v4 169 254 0 0 16, .v4 172 16 0 0 12,
    .v4 192 168 0 0 16]

def blockedNetworks6 : List Network := [⟨1, 128⟩, .v6 0xfc00 0 0 0 7, .v6 0xfe80 0 0 0 10]

/-- Is the address in one of `BLOCKED_NETWORKS`? -/
def inBlockedNetwork : Address → Bool
  | .v4 ip => blockedNetworks4.any (·.contains 32 ip)
  | .v6 ip => blockedNetworks6.any (·.contains 128 ip)

/-- Does `_validate_url` refuse a host with the address? -/
def isBlockedAddress (ip : Address) : Bool :=
  ip.isPrivate || ip.isLoopback || ip.isLinkLocal || inBlockedNetwork ip

inductive DownloadError where
  /-- An `ImageGenerationError` with its code and text. -/
  | image (code : String) (message : String)
  /-- An error of `urlparse`, of the resolver or of the HTTP client. -/
  | raised
deriving DecidableEq

structure Response where
  status : ℕ
  location : Option (List Char)
  contentType : Option (List Char)
  chunks : List (List UInt8)

/-- The HTTP client and the servers it reaches. -/
structure Client where
  /-- `client.get`, with nothing where it raises. -/
  get : List Char → Option Response
  /-- `response.url.join`, with nothing where it raises. -/
  join : List Char → List Char → Option (List Char)

structure SafeImageDownloader where
  names : Names
  client : Client
  /-- `allowed_domains` in small letters -/
  allowedDomains : List (List Char)
  maxBytes : ℕ

/-- `_domain_allowed`. -/
def domainAllowed (host : List Char) (allowedDomains : List (List Char)) : Bool :=
  allowedDomains.any fun domain => host = domain ∨ ('.' :: domain) <:+ host

namespace SafeImageDownloader

variable (d : SafeImageDownloader)

def hostOf (parsed : ParsedUrl) : List Char :=
  d.names.urls.lower ((parsed.hostname d.names.urls).getD [])

/-- The addresses `_validate_url` looks at, which the client connects to. -/
def addresses (url : List Char) : Option (List Address) := do
  let parsed ← ParsedUrl.parse d.names.urls url
  let port ← parsed.port.toOption
  d.names.resolve (d.hostOf parsed) (if port.getD 0 = 0 then 443 else port.getD 0)

/-- `_validate_url`. -/
def validateUrl (url : List Char) : Except DownloadError Unit := do
  let parsed ← orError .raised (ParsedUrl.parse d.names.urls url)
  ensure (d.names.urls.lower parsed.scheme = "https".toList)
    (.image "image_download_scheme_blocked" "Only HTTPS image URLs are allowed.")
  let host := d.hostOf parsed
  ensure (host ≠ [] ∧ domainAllowed host d.allowedDomains = true)
    (.image "image_download_domain_blocked"
      ("Image URL host is not in the allowlist: " ++
        String.ofList (if host = [] then "unknown".toList else host) ++ "."))
  let ips ← orError .raised (d.addresses url)
  ensure (ips.any isBlockedAddress = false)
    (.image "image_download_ssrf_blocked"
      ("Image URL host resolved to a blocked network: " ++ String.ofList host ++ "."))

def readBody (data : List UInt8) : List (List UInt8) → Except DownloadError (List UInt8)
  | [] => .ok data
  | chunk :: chunks =>
    if d.maxBytes < (data ++ chunk).length then
      .error (.image "image_download_too_large" "Downloaded image exceeded byte limit.")
    else readBody (data ++ chunk) chunks

/-- `content_type.split(";")[0].strip()` with spaces and tabs. -/
def mediaType (contentType : Option (List Char)) : List Char :=
  let text := (contentType.getD "application/octet-stream".toList).takeWhile (· ≠ ';')
  let blank : Char → Bool := fun c => c = ' ' ∨ c = '\t'
  ((text.dropWhile blank).reverse.dropWhile blank).reverse

abbrev Image := List UInt8 × List Char

def receive (current : List Char) (response : Response) : Except DownloadError (Image ⊕ List Char) :=
  if response.status ∈ [301, 302, 303, 307, 308] then
    match response.location with
    | none | some [] => .error (.image "image_download_redirect_invalid"
        "Image URL redirect has no Location header.")
    | some location =>
      match d.client.join current location with
      | none => .error .raised
      | some next => .ok (.inr next)
  else if response.status / 100 ≠ 2 then .error .raised
  else do
    let data ← d.readBody [] response.chunks
    return .inl (data, mediaType response.contentType)

/-- The hops that are left of `download`: the URLs requested in order, and the outcome. -/
def downloadFrom : ℕ → List Char → List (List Char) × Except DownloadError Image
  | 0, _ => ([], .error (.image "image_download_redirect_limit"
      "Image URL redirected too many times."))
  | hops + 1, current =>
    match d.validateUrl current with
    | .error e => ([], .error e)
    | .ok () =>
      match d.client.get current with
      | none => ([current], .error .raised)
      | some response =>
        match d.receive current response with
        | .error e => ([current], .error e)
        | .ok (.inl image) => ([current], .ok image)
        | .ok (.inr next) =>
          let rest := downloadFrom hops next
          (current :: rest.1, rest.2)

def download (url : List Char) : List (List Char) × Except DownloadError Image :=
  d.downloadFrom 5 url

end SafeImageDownloader
end CodeResearch.Settings
