import NotaryNetwork.Contract.FileStore
import NotaryNetwork.Text.Printable

/-!
# Packages

Schema files lie in packages. A package has a dotted name; the names before the dots are packages
too, of which it is a part. A module has such a name as well and holds nothing else. Names are looked
up from the outermost one on, so the first that fails is reported.
-/

namespace NotaryNetwork.Contract

/-- The names of packages and of modules. -/
structure PackageTable where
  packages : List String
  modules : List String

/-- Why a name is not that of a package. -/
inductive PackageError
  | emptyName
  | relative (name : String)
  | absent (name : String)
  | insideModule (name parent : String)
  | plainModule (name : String)
deriving DecidableEq

def PackageError.message : PackageError → String
  | emptyName => "Empty module name"
  | relative name =>
    "the 'package' argument is required to perform a relative import for " ++ Text.quoted name
  | absent name => "No module named " ++ Text.quoted name
  | insideModule name parent =>
    s!"No module named {Text.quoted name}; {Text.quoted parent} is not a package"
  | plainModule name => s!"{Text.quoted name} is not a package"

namespace PackageTable

def has (table : PackageTable) (name : String) : Bool :=
  table.packages.contains name || table.modules.contains name

/-- Looks up the parts of a name after one that has been found. -/
def descend (table : PackageTable) : String → List String → Except PackageError Unit
  | _, [] => .ok ()
  | parent, part :: rest =>
    let name := s!"{parent}.{part}"
    if table.has name then table.descend name rest
    else if table.packages.contains parent then .error (.absent name)
    else .error (.insideModule name parent)

def nameParts (name : String) : List String :=
  (Text.pieces '.' name.toList).map String.ofList

/-- The names that lead to a package, from the outermost one on. -/
def find (table : PackageTable) (name : String) : Except PackageError Path := do
  match nameParts name with
  | [] => throw .emptyName
  | first :: rest =>
    if name = "" then throw .emptyName
    if first = "" then throw (.relative name)
    unless table.has first do throw (.absent first)
    table.descend first rest
    if table.packages.contains name then return first :: rest
    throw (.plainModule name)

def folders (table : PackageTable) : List Path :=
  table.packages.map nameParts

end PackageTable

end NotaryNetwork.Contract
