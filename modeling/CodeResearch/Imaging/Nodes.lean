import CodeResearch.Imaging.Router
import CodeResearch.Library.Machine

/-!
# The diagram nodes

`teaching_diagram_generate_node` and `teaching_diagram_review_vlm_node`, one diagram of one
task at a time. Tasks share the files and the image cache.
-/
namespace CodeResearch.Imaging

structure DiagramAsset (H : Type) where
  path : FilePath H
  byteSize : ℕ
  sha256 : H

inductive AttemptStatus where
  | success
  | cacheHit
  | failed
  deriving DecidableEq

structure ProviderAttempt where
  provider : String
  model : Option String
  status : AttemptStatus

inductive DisplayVariant where
  | blueprint
  | ai

/-- `TeachingDiagramManifestItem`, as far as the two nodes read it. -/
structure DiagramItem (H : Type) where
  generatedRaw : Option (DiagramAsset H)
  styledComposite : Option (DiagramAsset H)
  finalAsset : Option (DiagramAsset H)
  displayVariant : DisplayVariant
  providerAttempts : List ProviderAttempt
  fallbackReason : Option String

structure DiagramState (H : Type) where
  world : ImageWorld H
  /-- The manifest of each task. -/
  items : Task → String → Option (DiagramItem H)

namespace DiagramState

variable {H : Type}

def start : DiagramState H where
  world := { files := LinkedFiles.empty, index := fun _ => none }
  items _ _ := none

def setWorld (s : DiagramState H) (w : ImageWorld H) : DiagramState H := { s with world := w }

def setItem (s : DiagramState H) (task : Task) (diagramId : String)
    (item : Option (DiagramItem H)) : DiagramState H :=
  { s with items := Function.update s.items task (Function.update (s.items task) diagramId item) }

end DiagramState

def styledComposite {H : Type} (task : Task) (diagramId : String) : FilePath H :=
  .output task ["teaching_diagrams", "ai", diagramId, "styled_composite.png"]

def finalPng {H : Type} (task : Task) (diagramId : String) : FilePath H :=
  .output task ["teaching_diagrams", "ai", diagramId, "final.png"]

variable {H : Type} [DecidableEq H] (tools : ImageTools H)

/-- `asset_from_file`. -/
def assetFromFile (w : ImageWorld H) (path : FilePath H) : Option (DiagramAsset H) :=
  (w.files.read path).map fun data => { path, byteSize := data.length, sha256 := tools.sha256 data }

/-- `TeachingDiagramCompositor.compose`. `render` is the page it draws, if it comes so far. The
second component is `none` where it raises. -/
def compose (w : ImageWorld H) (request : GenerationRequest) (generated : Option (FilePath H))
    (render : Option Bytes) : ImageWorld H × Option (Option (DiagramAsset H)) :=
  match generated.bind w.files.read with
  | none => (w, some none)
  | some raw =>
    let limits : ImageLimits :=
      { maxBytes := request.settings.maxSingleImageBytes
        maxWidth := request.settings.maxWidth
        maxHeight := request.settings.maxHeight }
    match validateImageFile tools.decoder limits (some .png) raw, render with
    | some _, some page =>
      let styled := styledComposite request.task request.diagramId
      let w' := { w with files := w.files.write styled page }
      match validateImageFile tools.decoder limits (some .png) page with
      | none => (w', none)
      | some _ => (w', some (assetFromFile tools w' styled))
    | _, _ => (w, none)

def providerAttempt (failedName : String) (result : ImageRouterResult H) : ProviderAttempt :=
  match result.image with
  | none => { provider := failedName, model := none, status := .failed }
  | some image =>
    { provider := image.provider
      model := some image.model
      status := if image.cacheHit then .cacheHit else .success }

structure GenerateInput where
  request : GenerationRequest
  specJson : Bytes
  blueprintSvg : Bytes
  blueprintPng : Bytes
  /-- Images are enabled, consented to, and a provider is available. -/
  imagesEnabled : Bool
  turns : List ProviderTurn
  render : Option Bytes

def writeBlueprint (w : ImageWorld H) (input : GenerateInput) : ImageWorld H :=
  let task := input.request.task
  let diagramId := input.request.diagramId
  let spec := w.files.write (.output task ["teaching_diagrams", "specs", diagramId ++ ".json"])
    input.specJson
  let svg := spec.write (.output task ["teaching_diagrams", "blueprint_svg", diagramId ++ ".svg"])
    input.blueprintSvg
  let png := svg.write (.output task ["teaching_diagrams", "blueprint_png", diagramId ++ ".png"])
    input.blueprintPng
  { w with files := png }

def requestImage (input : GenerateInput) (w : ImageWorld H) :
    ImageWorld H × List ProviderAttempt × Option (FilePath H) :=
  if input.imagesEnabled then
    let generated := generateImage tools input.request none input.turns w
    (generated.1, [providerAttempt "image_router" generated.2],
      generated.2.image.map GeneratedImage.imagePath)
  else (w, [], none)

/-- One diagram of `teaching_diagram_generate_node`. -/
def generateDiagram (s : DiagramState H) (input : GenerateInput) : DiagramState H :=
  let requested := requestImage tools input (writeBlueprint s.world input)
  let generated := requested.2.2
  let composed := compose tools requested.1 input.request generated input.render
  (s.setWorld composed.1).setItem input.request.task input.request.diagramId
    (composed.2.map fun styled =>
      { generatedRaw := generated.bind (assetFromFile tools requested.1)
        styledComposite := styled
        finalAsset := none
        displayVariant := .blueprint
        providerAttempts := requested.2.1
        fallbackReason := some (if generated.isSome then "review_not_enabled_or_not_passed"
          else "ai_image_unavailable") })

/-- Why a diagram is not sent for review. -/
inductive ReviewGate where
  | opened
  | closed (reason : String)

structure ReviewInput where
  request : GenerationRequest
  gate : ReviewGate
  /-- Whether the first review passes, if there is one. -/
  firstReview : Option Bool
  hasImageRuntime : Bool
  turns : List ProviderTurn
  render : Option Bytes
  secondReview : Option Bool

/-- Whether `_review_once` has a review that passes. -/
def reviewPasses (w : ImageWorld H) (item : DiagramItem H) (review : Option Bool) : Bool :=
  (item.styledComposite.bind fun styled => w.files.read styled.path).isSome && review == some true

def DiagramItem.fallback (item : DiagramItem H) (reason : String) : DiagramItem H :=
  { item with displayVariant := .blueprint, fallbackReason := some reason }

/-- `_accept_ai`; `none` is a copy that raises. -/
def acceptAi (w : ImageWorld H) (request : GenerationRequest) (item : DiagramItem H) :
    Option (ImageWorld H × DiagramItem H) :=
  match item.styledComposite with
  | none => some (w, item.fallback "styled_composite_unavailable")
  | some styled =>
    let final := finalPng request.task request.diagramId
    (w.files.copyfile styled.path final).map fun files =>
      let w' := { w with files }
      (w', { item with
        finalAsset := assetFromFile tools w' final
        displayVariant := .ai
        fallbackReason := none })

/-- `_can_seedream_retry`. -/
def canSeedreamRetry (item : DiagramItem H) (hasImageRuntime : Bool) : Bool :=
  hasImageRuntime && !item.providerAttempts.any fun attempt =>
    attempt.provider == "seedream" &&
      (attempt.status == .success || attempt.status == .cacheHit)

/-- `_regenerate_with_seedream`. The second component is `none` where it raises, and otherwise
the diagram and whether it has a new composite. -/
def regenerateWithSeedream (w : ImageWorld H) (input : ReviewInput) (item : DiagramItem H) :
    ImageWorld H × Option (DiagramItem H × Bool) :=
  match generateImage tools input.request (some ["seedream"]) input.turns w with
  | (w', result) =>
    let attempted := { item with
      providerAttempts := item.providerAttempts ++ [providerAttempt "seedream" result] }
    match result.image with
    | none => (w', some (attempted, false))
    | some image =>
      match compose tools w' input.request (some image.imagePath) input.render with
      | (w'', none) => (w'', none)
      | (w'', some styled) =>
        (w'', some ({ attempted with
          generatedRaw := assetFromFile tools w' image.imagePath
          styledComposite := styled
          finalAsset := none }, styled.isSome))

/-- One diagram of `teaching_diagram_review_vlm_node`; the second component is `none` where
the node raises. -/
def reviewItem (w : ImageWorld H) (input : ReviewInput) (item : DiagramItem H) :
    ImageWorld H × Option (DiagramItem H) :=
  match input.gate with
  | .closed reason => (w, some (item.fallback reason))
  | .opened =>
    if item.generatedRaw.isNone || item.styledComposite.isNone then
      (w, some (item.fallback "styled_composite_unavailable"))
    else if reviewPasses w item input.firstReview then
      match acceptAi tools w input.request item with
      | none => (w, none)
      | some (w', item') => (w', some item')
    else if canSeedreamRetry item input.hasImageRuntime then
      match regenerateWithSeedream tools w input item with
      | (w', none) => (w', none)
      | (w', some (item', regenerated)) =>
        if regenerated && reviewPasses w' item' input.secondReview then
          match acceptAi tools w' input.request item' with
          | none => (w', none)
          | some (w'', item'') => (w'', some item'')
        else (w', some (item'.fallback "review_failed_fallback_blueprint"))
    else (w, some (item.fallback "review_failed_fallback_blueprint"))

def reviewDiagram (s : DiagramState H) (input : ReviewInput) : DiagramState H :=
  let task := input.request.task
  let diagramId := input.request.diagramId
  match s.items task diagramId with
  | none => s
  | some item =>
    match reviewItem tools s.world input item with
    | (w, none) => s.setWorld w
    | (w, some item') => (s.setWorld w).setItem task diagramId (some item')

/-- `atomic_write_manifest`. -/
def writeManifest (s : DiagramState H) (task : Task) (text : Bytes) : DiagramState H :=
  let temporary : FilePath H := .output task ["teaching_diagrams", "manifest.json.tmp"]
  let path : FilePath H := .output task ["teaching_diagrams", "manifest.json"]
  s.setWorld { s.world with files := (s.world.files.write temporary text).replace temporary path }

inductive DiagramStep where
  | generate (input : GenerateInput)
  | review (input : ReviewInput)
  | manifest (task : Task) (text : Bytes)

def DiagramStep.task : DiagramStep → Task
  | .generate input => input.request.task
  | .review input => input.request.task
  | .manifest task _ => task

def diagrams : Machine (DiagramState H) DiagramStep where
  step s
    | .generate input => some (generateDiagram tools s input)
    | .review input => some (reviewDiagram tools s input)
    | .manifest task text => some (writeManifest s task text)

end CodeResearch.Imaging
