import NotaryNetwork.Contract.Catalogue
import NotaryNetwork.Contract.WellFormed
import NotaryNetwork.Json.Reader
import NotaryNetwork.Table
import NotaryNetwork.Text.Utf8

/-!
# Loading schemas

A loader reads schema files from a catalogue and keeps what it has loaded. A file is checked to be a
schema when it is loaded; what fails is not kept.
-/

namespace NotaryNetwork.Contract

open Json (Value)

/-- Why a schema cannot be loaded. -/
inductive LoadError
  | notFound
  /-- The path of the file is too long. -/
  | refused
  | unreadable (error : Json.ReadError)
  | invalid (name : String)
deriving DecidableEq

/-- The message of a document that is no schema, up to the reason. -/
def invalidMessage (name : String) : String :=
  s!"Invalid JSON Schema in {name}.json"

/-- A loader: its catalogue, what tells the documents that are schemas, and what it has loaded. -/
structure Loader where
  catalogue : Catalogue
  check : Value → Bool
  loaded : Table String Value

namespace Loader

def fresh (catalogue : Catalogue) (check : Value → Bool := isSchema) : Loader :=
  ⟨catalogue, check, .empty⟩

def readFile (loader : Loader) (name : String) : Except LoadError Value := do
  match loader.catalogue name with
  | .nothing => throw .notFound
  | .refused => throw .refused
  | .file text =>
    let document ← (Json.read (String.ofList (Text.unifyNewlines text.toList))).mapError .unreadable
    if loader.check document then return document else throw (.invalid name)

/-- What has been loaded under a name; null counts as nothing. -/
def cached? (loader : Loader) (name : String) : Option Value :=
  match loader.loaded.get? name with
  | some .null | none => none
  | some document => some document

/-- The schema of a name, from what has been loaded or from its file. -/
def load (loader : Loader) (name : String) : Except LoadError Value × Loader :=
  match loader.cached? name with
  | some document => (.ok document, loader)
  | none =>
    match loader.readFile name with
    | .ok document => (.ok document, { loader with loaded := loader.loaded.insert name document })
    | .error e => (.error e, loader)

end Loader

end NotaryNetwork.Contract
