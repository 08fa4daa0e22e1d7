import CodeResearch.Library.Links

/-!
# Validated image files

`validate_image_file` and `write_validated_image`. Decoding is a parameter: what PyMuPDF
reads from bytes, as the size of an image and as a rendered page.
-/
namespace CodeResearch.Imaging

abbrev Bytes := List UInt8

inductive Mime where
  | png
  | jpeg
  | webp
  | octetStream
  deriving DecidableEq

def Mime.text : Mime → String
  | .png => "image/png"
  | .jpeg => "image/jpeg"
  | .webp => "image/webp"
  | .octetStream => "application/octet-stream"

def allowedImageMime : List Mime := [.png, .jpeg, .webp]

structure Pixmap where
  width : ℕ
  height : ℕ
  png : Bytes

/-- What PyMuPDF makes of bytes. -/
structure Decoder where
  /-- `fitz.Pixmap(path)`. -/
  size : Bytes → Option (ℕ × ℕ)
  /-- The first page of `fitz.open(stream, filetype)`. -/
  firstPage : Mime → Bytes → Option Pixmap

structure ImageLimits where
  maxBytes : ℕ
  maxWidth : ℕ
  maxHeight : ℕ

structure ImageInfo where
  mimeType : Mime
  width : ℕ
  height : ℕ
  byteSize : ℕ

/-- The bytes that `bytes.lstrip()` drops. -/
def isSpace (b : UInt8) : Bool := b == 0x20 || (0x09 ≤ b && b ≤ 0x0d)

/-- `<svg`, `<html` and `<!DOCTYPE`. -/
def activeContent : List Bytes :=
  [[0x3c, 0x73, 0x76, 0x67], [0x3c, 0x68, 0x74, 0x6d, 0x6c],
    [0x3c, 0x21, 0x44, 0x4f, 0x43, 0x54, 0x59, 0x50, 0x45]]

/-- `_detect_mime`, which raises on active or vector content. -/
def detectMime (data : Bytes) : Option Mime :=
  if [0x89, 0x50, 0x4e, 0x47, 0x0d, 0x0a, 0x1a, 0x0a].isPrefixOf data then some .png
  else if [0xff, 0xd8, 0xff].isPrefixOf data then some .jpeg
  else if [0x52, 0x49, 0x46, 0x46].isPrefixOf data ∧
      (data.drop 8).take 4 = [0x57, 0x45, 0x42, 0x50] then some .webp
  else if activeContent.any (·.isPrefixOf (data.dropWhile isSpace)) then none
  else some .octetStream

def ImageLimits.fits (limits : ImageLimits) (width height : ℕ) : Bool :=
  width ≤ limits.maxWidth && height ≤ limits.maxHeight &&
    width * height ≤ limits.maxWidth * limits.maxHeight

/-- `validate_image_file` on the bytes of the file. -/
def validateImageFile (decoder : Decoder) (limits : ImageLimits) (expectedMime : Option Mime)
    (data : Bytes) : Option ImageInfo := do
  guard (data.length ≤ limits.maxBytes)
  let mime ← detectMime data
  guard (mime ∈ allowedImageMime)
  guard (∀ expected ∈ expectedMime, expected ∈ allowedImageMime → mime = expected)
  let (width, height) ← decoder.size data
  guard (limits.fits width height)
  return { mimeType := mime, width, height, byteSize := data.length }

/-- `_normalize_to_png`. -/
def normalizeToPng (decoder : Decoder) (limits : ImageLimits) (imageBytes : Bytes) :
    Option Bytes := do
  let mime ← detectMime imageBytes
  guard (mime ∈ allowedImageMime)
  let pixmap ← decoder.firstPage mime imageBytes
  guard (limits.fits pixmap.width pixmap.height)
  return pixmap.png

/-- What `write_validated_image` writes, unless it raises before. -/
def pngToWrite (decoder : Decoder) (limits : ImageLimits) (imageBytes : Bytes)
    (mimeType : String) : Option Bytes := do
  let inputMime ← detectMime imageBytes
  guard (mimeType ∈ allowedImageMime.map Mime.text → inputMime.text = mimeType)
  let png ← normalizeToPng decoder limits imageBytes
  guard (png.length ≤ limits.maxBytes)
  return png

variable {P : Type*} [DecidableEq P]

/-- `write_validated_image` to a name that ends in `.png`. -/
def writeValidatedImage (decoder : Decoder) (limits : ImageLimits) (files : LinkedFiles P Bytes)
    (path : P) (imageBytes : Bytes) (mimeType : String) :
    LinkedFiles P Bytes × Option ImageInfo :=
  match pngToWrite decoder limits imageBytes mimeType with
  | none => (files, none)
  | some png =>
    match validateImageFile decoder limits (some .png) png with
    | some info => (files.write path png, some info)
    | none => ((files.write path png).unlink path, none)

theorem writeValidatedImage_files (decoder : Decoder) (limits : ImageLimits)
    (files : LinkedFiles P Bytes) (path : P) (imageBytes : Bytes) (mimeType : String) :
    let result := writeValidatedImage decoder limits files path imageBytes mimeType
    (result = (files, none)) ∨
      (∃ png, result = ((files.write path png).unlink path, none)) ∨
        ∃ png info, result = (files.write path png, some info) := by
  dsimp only
  unfold writeValidatedImage
  split
  · exact .inl rfl
  · rename_i png _
    split
    · exact .inr (.inr ⟨png, _, rfl⟩)
    · exact .inr (.inl ⟨png, rfl⟩)

end CodeResearch.Imaging
