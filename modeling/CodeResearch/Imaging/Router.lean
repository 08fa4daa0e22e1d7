import CodeResearch.Imaging.Safety

/-!
# The image cache and its router

`ImageGenerationCache` keeps an index in SQLite and its assets as files named by their hash.
`ImageGenerationRouter` answers from the cache with a hard link to the asset, or asks the
providers one after another. What providers, the file system and SQLite do is read from a
`ProviderTurn` for each provider asked.
-/
namespace CodeResearch.Imaging

abbrev Task := String

/-- A cached asset, or a file below the output directory of a task. -/
inductive FilePath (H : Type) where
  | asset (sha256 : H)
  | output (task : Task) (parts : List String)
  deriving DecidableEq

structure CacheKey where
  provider : String
  model : String
  promptVersion : String
  schemaVersion : String
  publicSpecHash : String
  width : ℕ
  height : ℕ
  deriving DecidableEq

structure ImageMetadata where
  info : ImageInfo
  provider : String
  model : String
  latencyMs : ℕ

structure CacheRow (H : Type) where
  metadata : ImageMetadata
  cachedAssetPath : FilePath H
  sha256 : H

structure ImageWorld (H : Type) where
  files : LinkedFiles (FilePath H) Bytes
  index : CacheKey → Option (CacheRow H)

/-- The code outside the repository: decoding and hashing. -/
structure ImageTools (H : Type) where
  decoder : Decoder
  sha256 : Bytes → H

structure ImageSettings where
  cacheEnabled : Bool
  maxWidth : ℕ
  maxHeight : ℕ
  maxSingleImageBytes : ℕ

structure GenerationRequest where
  diagramId : String
  publicSpecHash : String
  promptVersion : String
  schemaVersion : String
  width : ℕ
  height : ℕ
  maxOutputBytes : ℕ
  task : Task
  settings : ImageSettings

/-- `teaching_diagrams/ai/<diagram>/generated_raw.png`. -/
def rawParts (diagramId : String) : List String :=
  ["teaching_diagrams", "ai", diagramId, "generated_raw.png"]

def generatedRaw {H : Type} (task : Task) (diagramId : String) : FilePath H :=
  .output task (rawParts diagramId)

def GenerationRequest.outputPath {H : Type} (request : GenerationRequest) : FilePath H :=
  generatedRaw request.task request.diagramId

structure Warning where
  code : String
  contextId : String
  provider : Option String

structure GeneratedImage (H : Type) where
  imagePath : FilePath H
  provider : String
  model : String
  cacheHit : Bool

structure ImageRouterResult (H : Type) where
  image : Option (GeneratedImage H)
  warnings : List Warning

inductive RequestSize where
  | unsupported
  | size (width height : ℕ)
  | invalid

/-- Which file operations of `_copy_or_link` the operating system carries out. -/
structure LinkOutcome where
  unlinks : Bool
  links : Bool
  copies : Bool

inductive SetOutcome where
  | stored
  /-- The index raises after the asset is written. -/
  | assetOnly
  | failed

/-- One attempt at a provider. -/
inductive Attempt where
  | overBudget
  | failed (code : String) (recoverable : Bool)
  | raised
  | delivered (imageBytes : Bytes) (mimeType : String) (latencyMs : ℕ) (caching : SetOutcome)

structure ProviderTurn where
  name : String
  model : String
  configured : Bool
  requestSize : RequestSize
  cacheReadFails : Bool
  link : LinkOutcome
  /-- One entry for each of the `max_retries + 1` attempts. -/
  attempts : List Attempt

variable {H : Type} [DecidableEq H] (tools : ImageTools H)

def cacheGet (w : ImageWorld H) (enabled : Bool) (key : CacheKey) : Option (CacheRow H) :=
  if enabled then w.index key else none

/-- `set`, as far as it comes. -/
def cacheSet (w : ImageWorld H) (enabled : Bool) (key : CacheKey) (imageBytes : Bytes)
    (metadata : ImageMetadata) : SetOutcome → ImageWorld H
  | .failed => w
  | .assetOnly =>
    if enabled then
      { w with files := w.files.write (.asset (tools.sha256 imageBytes)) imageBytes }
    else w
  | .stored =>
    if enabled then
      let sha256 := tools.sha256 imageBytes
      { files := w.files.write (.asset sha256) imageBytes
        index := Function.update w.index key
          (some { metadata, cachedAssetPath := .asset sha256, sha256 }) }
    else w

def warning (code : String) (request : GenerationRequest) (provider : Option String) : Warning :=
  { code, contextId := request.diagramId, provider }

def ProviderTurn.dimensions (turn : ProviderTurn) (request : GenerationRequest) :
    Option (ℕ × ℕ) :=
  match turn.requestSize with
  | .unsupported => some (request.width, request.height)
  | .size width height => some (width, height)
  | .invalid => none

def cacheKey (request : GenerationRequest) (turn : ProviderTurn) (width height : ℕ) : CacheKey where
  provider := turn.name
  model := turn.model
  promptVersion := request.promptVersion
  schemaVersion := request.schemaVersion
  publicSpecHash := request.publicSpecHash
  width := width
  height := height

/-- `_validate_cached`. -/
def validateCached (w : ImageWorld H) (row : CacheRow H) (request : GenerationRequest)
    (width height : ℕ) : Option ImageInfo := do
  let data ← w.files.read row.cachedAssetPath
  guard (row.sha256 = tools.sha256 data)
  validateImageFile tools.decoder
    { maxBytes := request.maxOutputBytes
      maxWidth := max request.settings.maxWidth width
      maxHeight := max request.settings.maxHeight height } (some .png) data

/-- The body of the `try` in `_copy_or_link`, and whether it came to its end. -/
def relink {P : Type*} [DecidableEq P] (files : LinkedFiles P Bytes) (source target : P)
    (outcome : LinkOutcome) : LinkedFiles P Bytes × Bool :=
  if files.inode target ≠ none ∧ outcome.unlinks = false then (files, false)
  else
    let cleared := files.unlink target
    match if outcome.links then cleared.hardlinkTo target source else none with
    | some linked => (linked, true)
    | none => (cleared, false)

/-- `_copy_or_link`, and whether it returned. -/
def copyOrLink {P : Type*} [DecidableEq P] (files : LinkedFiles P Bytes) (source target : P)
    (outcome : LinkOutcome) : LinkedFiles P Bytes × Bool :=
  match relink files source target outcome with
  | (linked, true) => (linked, true)
  | (files, false) =>
    match if outcome.copies then files.copyfile source target else none with
    | some copied => (copied, true)
    | none => (files, false)

def fromCache (w : ImageWorld H) (request : GenerationRequest) (turn : ProviderTurn)
    (width height : ℕ) : ImageWorld H × ImageRouterResult H :=
  let failed : List Warning := [warning "image_cache_error" request (some turn.name)]
  if turn.cacheReadFails then (w, { image := none, warnings := failed })
  else
    match cacheGet w request.settings.cacheEnabled (cacheKey request turn width height) with
    | none => (w, { image := none, warnings := [] })
    | some row =>
      match validateCached tools w row request width height with
      | none => (w, { image := none, warnings := failed })
      | some _ =>
        match copyOrLink w.files row.cachedAssetPath request.outputPath turn.link with
        | (files, false) => ({ w with files }, { image := none, warnings := failed })
        | (files, true) =>
          ({ w with files },
            { image := some
                { imagePath := request.outputPath
                  provider := row.metadata.provider
                  model := row.metadata.model
                  cacheHit := true }
              warnings := [] })

def takeDelivery (w : ImageWorld H) (request : GenerationRequest) (turn : ProviderTurn)
    (width height : ℕ) (imageBytes : Bytes) (mimeType : String) (latencyMs : ℕ)
    (caching : SetOutcome) : ImageWorld H × Option (GeneratedImage H) :=
  match writeValidatedImage tools.decoder
      { maxBytes := request.maxOutputBytes
        maxWidth := max request.settings.maxWidth (max width request.width)
        maxHeight := max request.settings.maxHeight (max height request.height) }
      w.files request.outputPath imageBytes mimeType with
  | (files, none) => ({ w with files }, none)
  | (files, some info) =>
    let metadata : ImageMetadata := { info, provider := turn.name, model := turn.model, latencyMs }
    let cached := match files.read request.outputPath with
      | none => { w with files }
      | some data =>
        cacheSet tools { w with files } request.settings.cacheEnabled
          (cacheKey request turn width height) data metadata caching
    (cached,
      some
        { imagePath := request.outputPath
          provider := turn.name
          model := turn.model
          cacheHit := false })

def SetOutcome.warnings (request : GenerationRequest) (turn : ProviderTurn) :
    SetOutcome → List Warning
  | .stored => []
  | .assetOnly | .failed => [warning "image_cache_error" request (some turn.name)]

/-- The attempts at one provider. The first component says whether the router returned. -/
def tryProvider (request : GenerationRequest) (turn : ProviderTurn) (width height : ℕ) :
    List Attempt → ImageWorld H → List Warning → Bool × ImageWorld H × ImageRouterResult H
  | [], w, warnings => (false, w, { image := none, warnings })
  | .overBudget :: _, w, warnings =>
    (true, w, { image := none, warnings := warnings ++
      [warning "image_provider_request_budget_exceeded" request (some turn.name)] })
  | .failed code recoverable :: rest, w, warnings =>
    let warnings := warnings ++ [warning code request (some turn.name)]
    if recoverable then tryProvider request turn width height rest w warnings
    else (false, w, { image := none, warnings })
  | .raised :: rest, w, warnings =>
    tryProvider request turn width height rest w
      (warnings ++ [warning "image_provider_unknown_error" request (some turn.name)])
  | .delivered imageBytes mimeType latencyMs caching :: rest, w, warnings =>
    match takeDelivery tools w request turn width height imageBytes mimeType latencyMs caching with
    | (w', some image) =>
      (true, w', { image := some image, warnings := warnings ++ caching.warnings request turn })
    | (w', none) =>
      tryProvider request turn width height rest w'
        (warnings ++ [warning "image_provider_unknown_error" request (some turn.name)])

/-- The loop of `_generate_impl` over the providers. -/
def tryProviders (request : GenerationRequest) :
    List ProviderTurn → ImageWorld H → List Warning → ImageWorld H × ImageRouterResult H
  | [], w, warnings => (w, { image := none, warnings })
  | turn :: rest, w, warnings =>
    match turn.dimensions request with
    | none =>
      tryProviders request rest w
        (warnings ++ [warning "image_provider_invalid_request_size" request (some turn.name)])
    | some (width, height) =>
      match fromCache tools w request turn width height with
      | (w', { image := some image, warnings := logged }) =>
        (w', { image := some image, warnings := warnings ++ logged })
      | (w', { image := none, warnings := logged }) =>
        match tryProvider tools request turn width height turn.attempts w' (warnings ++ logged) with
        | (true, w'', result) => (w'', result)
        | (false, w'', result) => tryProviders request rest w'' result.warnings

/-- `ImageGenerationRouter.generate` with `provider_names`. -/
def generateImage (request : GenerationRequest) (providerNames : Option (List String))
    (turns : List ProviderTurn) (w : ImageWorld H) : ImageWorld H × ImageRouterResult H :=
  let providers := turns.filter fun turn =>
    turn.configured && providerNames.all (turn.name ∈ ·)
  match tryProviders tools request providers w [] with
  | (w', result) =>
    if providers.isEmpty then
      (w', { result with
        warnings := result.warnings ++ [warning "image_provider_unconfigured" request none] })
    else (w', result)

end CodeResearch.Imaging
