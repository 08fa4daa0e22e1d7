import CodeResearch.Library.Machine
import Mathlib.Data.Int.Notation

/-!
# Provider secrets

A metadata file with a revision and the keyring of the operating system. Processes call
`update_provider` and `delete_api_key` on stores over one file; the file is read and written
under `flock`, while a keyring entry is set or deleted on its own.
-/
namespace CodeResearch.Settings

/-- The entry of a provider in the metadata. -/
structure Provider where
  /-- `none` where it is no mapping -/
  config : Option (String → Option String) := some fun _ => none
  apiKey : Option String := none
  apiKeySource : Option String := none

structure Document where
  /-- `none` where `int` raises on it -/
  revision : Option ℤ := some 0
  /-- a provider that is not listed has no fields, and `none` is an entry that is no mapping -/
  providers : String → Option Provider := fun _ => some {}

inductive MetadataFile
  | absent
  | plain (document : Document)
  | encrypted (document : Document)
  | damaged

/-- The classes `SecretStore`, `EncryptedSecretStore` and `KeyringSecretStore`. -/
inductive StoreKind
  | file | encrypted | keyring
  deriving DecidableEq

namespace StoreKind

/-- `read`; `none` is a `SecretStoreError`. -/
def read : StoreKind → MetadataFile → Option Document
  | _, .absent => some {}
  | .encrypted, .encrypted document => some document
  | .file, .plain document => some document
  | .keyring, .plain document => some document
  | _, _ => none

def encode : StoreKind → Document → MetadataFile
  | .encrypted, document => .encrypted document
  | _, document => .plain document

end StoreKind

def Provider.key (provider : Provider) (answer : Option String) : String :=
  match if provider.apiKeySource = some "keyring" then answer.filter (· ≠ "") else none with
  | some value => value
  | none => provider.apiKey.getD ""

abbrev Keyring := String → Option String

def Document.key (document : Document) (keyring : Keyring) (provider : String) : Option String :=
  (document.providers provider).map fun p => p.key (keyring provider)

/-- `provider_api_key`, with whether the file can be read and the keyring answers; `none` is an
exception. -/
def providerApiKey (kind : StoreKind) (file : MetadataFile) (keyring : Keyring)
    (readable answers : Bool) (provider : String) : Option String :=
  match if readable then kind.read file else none with
  | none => some ""
  | some document => document.key (if answers then keyring else fun _ => none) provider

inductive SecretCall
  | update (kind : StoreKind) (provider : String) (config : List (String × Option String))
      (apiKey : Option String) (expectedRevision : ℤ)
  | delete (kind : StoreKind) (provider : String) (expectedRevision : ℤ)

namespace SecretCall

def kind : SecretCall → StoreKind
  | update kind .. | delete kind .. => kind

def provider : SecretCall → String
  | update _ provider .. | delete _ provider _ => provider

def expectedRevision : SecretCall → ℤ
  | update _ _ _ _ revision | delete _ _ revision => revision

def passedKey : SecretCall → Option String
  | update _ _ _ apiKey _ => apiKey.filter (· ≠ "")
  | delete .. => none

/-- `KeyringSecretStore.update_provider` sets the keyring before `_write_mutation`. -/
def presets (call : SecretCall) : Bool := call.kind == .keyring && call.passedKey.isSome

/-- Whether `mutate` calls the keyring. -/
def touches (call : SecretCall) (document : Document) : Bool :=
  match call with
  | update kind .. => kind != .keyring && call.passedKey.isSome
  | delete _ provider _ =>
    (document.providers provider).any fun p => p.apiKeySource == some "keyring"

/-- The document that `_write_mutation` goes on with. -/
def admitted (call : SecretCall) (file : MetadataFile) : Option Document := do
  let document ← call.kind.read file
  guard (document.revision = some call.expectedRevision)
  return document

def mergeConfig (current : String → Option String) (config : List (String × Option String)) :
    String → Option String :=
  config.foldl (fun current (key, value) => Function.update current key value) current

/-- What `mutate` leaves of a provider, `stored` being the answer of the keyring. -/
def mutateProvider (call : SecretCall) (stored : Bool) (p : Provider) : Option Provider :=
  match call with
  | update kind _ config _ _ => do
    let current ← p.config
    let merged := { p with config := some (mergeConfig current config) }
    match call.passedKey with
    | none => return merged
    | some key =>
      if kind = .keyring ∨ stored then
        return { merged with apiKey := none, apiKeySource := some "keyring" }
      else return { merged with apiKey := some key, apiKeySource := some "file" }
  | delete .. => some { p with apiKey := none, apiKeySource := none }

/-- `mutate` and the revision after it; `none` is an exception. -/
def mutate (call : SecretCall) (stored : Bool) (document : Document) : Option Document := do
  let p ← document.providers call.provider
  let p' ← call.mutateProvider stored p
  return {
    revision := document.revision.map (· + 1)
    providers := Function.update document.providers call.provider (some p') }

end SecretCall

/-- What a call has done to the keyring entry of its provider. -/
inductive Touch
  | untouched
  | kept
  | changed
  deriving DecidableEq

inductive Point
  | presetting
  | waiting (touch : Touch)
  | reading (touch : Touch)
  | mutating (touch : Touch) (document : Document)
  | writing (touch : Touch) (document : Document)
  | returned
  | raised

namespace Point

def touch : Point → Touch
  | waiting touch | reading touch | mutating touch _ | writing touch _ => touch
  | presetting | returned | raised => .untouched

/-- The points between `flock` and the end of the call. -/
def Critical : Point → Prop
  | reading _ | mutating _ _ | writing _ _ => True
  | _ => False

end Point

structure SecretState where
  file : MetadataFile
  keyring : Keyring
  lock : Option ℕ := none
  calls : ℕ → Option (SecretCall × Point) := fun _ => none
  /-- the calls that returned, the last one first -/
  log : List SecretCall := []

namespace SecretState

def move (s : SecretState) (id : ℕ) (call : SecretCall) (point : Point) : SecretState :=
  { s with calls := Function.update s.calls id (some (call, point)) }

def setEntry (s : SecretState) (call : SecretCall) : SecretState :=
  { s with keyring := Function.update s.keyring call.provider call.passedKey }

def touchOf (s : SecretState) (touch : Touch) (call : SecretCall) : Touch :=
  if touch = .changed ∨ s.keyring call.provider ≠ call.passedKey then .changed else .kept

def abandon (s : SecretState) (id : ℕ) (call : SecretCall) : SecretState :=
  { s.move id call .raised with lock := none }

/-- `_atomic_write` has replaced the file and the call returns. -/
def commit (s : SecretState) (id : ℕ) (call : SecretCall) (document : Document) : SecretState :=
  { s.move id call .returned with
    file := call.kind.encode document
    lock := none
    log := call :: s.log }

end SecretState

/-- The steps of a call, with whether the file or keyring operation in it is carried out. -/
inductive SecretLabel
  | start (id : ℕ) (call : SecretCall)
  | preset (id : ℕ) (done : Bool)
  | acquire (id : ℕ) (done : Bool)
  | read (id : ℕ) (done : Bool)
  | mutate (id : ℕ) (stored : Bool)
  | write (id : ℕ) (done : Bool)

def SecretLabel.id : SecretLabel → ℕ
  | start id _ | preset id _ | acquire id _ | read id _ | mutate id _ | write id _ => id

def secrets : Machine SecretState SecretLabel where
  step s
    | .start id call =>
      match s.calls id with
      | none => some (s.move id call (if call.presets then .presetting else .waiting .untouched))
      | some _ => none
    | .preset id done =>
      match s.calls id with
      | some (call, .presetting) =>
        if done then some ((s.setEntry call).move id call (.waiting (s.touchOf .untouched call)))
        else some (s.move id call .raised)
      | _ => none
    | .acquire id done =>
      match s.calls id with
      | some (call, .waiting touch) =>
        if done then
          if s.lock = none then some ({ s with lock := some id }.move id call (.reading touch))
          else none
        else some (s.move id call .raised)
      | _ => none
    | .read id done =>
      match s.calls id with
      | some (call, .reading touch) =>
        match if done then call.admitted s.file else none with
        | some document => some (s.move id call (.mutating touch document))
        | none => some (s.abandon id call)
      | _ => none
    | .mutate id stored =>
      match s.calls id with
      | some (call, .mutating touch document) =>
        match call.mutate stored document with
        | none => some (s.abandon id call)
        | some mutated =>
          if call.touches document && stored then
            some ((s.setEntry call).move id call (.writing (s.touchOf touch call) mutated))
          else some (s.move id call (.writing touch mutated))
      | _ => none
    | .write id done =>
      match s.calls id with
      | some (call, .writing _ document) =>
        if done then some (s.commit id call document) else some (s.abandon id call)
      | _ => none

end CodeResearch.Settings
