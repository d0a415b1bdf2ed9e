import NotaryNetwork.Oid
import NotaryNetwork.Text.Utf8

/-!
# Attributes of names

An attribute has a type, which is an object identifier, and a text. Nine types have a short name,
and some limit the size of the text in bytes.

An attribute is written as its type, an equals sign and its escaped value. A backslash stands before
every character that would end the value or start an escape, before a `#` or a space at the start
and before a space at the end; the null character is written by its digits.
-/

namespace NotaryNetwork.Name

/-- An attribute: its type and its text. -/
structure Attribute where
  type : Oid
  value : String
deriving DecidableEq

/-! ## Types -/

def commonName : Oid := ⟨[2, 5, 4, 3]⟩
def locality : Oid := ⟨[2, 5, 4, 7]⟩
def state : Oid := ⟨[2, 5, 4, 8]⟩
def streetAddress : Oid := ⟨[2, 5, 4, 9]⟩
def organization : Oid := ⟨[2, 5, 4, 10]⟩
def organizationUnit : Oid := ⟨[2, 5, 4, 11]⟩
def country : Oid := ⟨[2, 5, 4, 6]⟩
def domainComponent : Oid := ⟨[0, 9, 2342, 19200300, 100, 1, 25]⟩
def userId : Oid := ⟨[0, 9, 2342, 19200300, 100, 1, 1]⟩
def jurisdictionCountry : Oid := ⟨[1, 3, 6, 1, 4, 1, 311, 60, 2, 1, 3]⟩

/-- The types with a short name. -/
def shortNames : List (String × Oid) := [
  ("CN", commonName), ("L", locality), ("ST", state), ("O", organization),
  ("OU", organizationUnit), ("C", country), ("STREET", streetAddress), ("DC", domainComponent),
  ("UID", userId)]

def typeOfShortName? (name : String) : Option Oid :=
  shortNames.lookup name

/-- The short name of a type, or its arcs where it has none. -/
def typeLabel (type : Oid) : String :=
  match shortNames.find? (·.2 = type) with
  | some (name, _) => name
  | none => type.dotted

/-! ## Sizes -/

/-- The least and the greatest size of the texts of a type, in bytes of UTF-8. -/
def sizeLimits? (type : Oid) : Option (Nat × Nat) :=
  if type = commonName then some (1, 64)
  else if type = country ∨ type = jurisdictionCountry then some (2, 2)
  else none

/-- A text that is not within the limits of its type. -/
structure SizeFault where
  least : Nat
  most : Nat
  actual : Nat
deriving DecidableEq

def SizeFault.message (fault : SizeFault) : String :=
  s!"Attribute's length must be >= {fault.least} and <= {fault.most}, but it was {fault.actual}"

/-- The attribute of a type and a text whose size the type admits. -/
def Attribute.make (type : Oid) (value : String) : Except SizeFault Attribute :=
  match sizeLimits? type with
  | none => .ok ⟨type, value⟩
  | some (least, most) =>
    let size := Text.Utf8.size value.toList
    if least ≤ size ∧ size ≤ most then .ok ⟨type, value⟩ else .error ⟨least, most, size⟩

/-! ## Writing -/

/-- The characters that are escaped wherever they stand. -/
def escapedAnywhere : List Char := ['\\', '\x22', '+', ',', ';', '<', '>']

/-- One character, apart from what its place demands. -/
def escapeChar (c : Char) : List Char :=
  if escapedAnywhere.contains c then ['\\', c]
  else if c = '\x00' then ['\\', '0', '0']
  else [c]

/-- The characters with a space at their end escaped. -/
def escapeLast : List Char → List Char
  | [] => []
  | [c] => if c = ' ' then ['\\', ' '] else [c]
  | c :: cs => c :: escapeLast cs

/-- The characters with a mark or a space at their start escaped; a single space is left to
`escapeLast`. -/
def escapeFirst : List Char → List Char
  | '#' :: cs => '\\' :: '#' :: cs
  | ' ' :: c :: cs => '\\' :: ' ' :: c :: cs
  | cs => cs

def escape (value : List Char) : List Char :=
  escapeLast (escapeFirst (value.flatMap escapeChar))

def Attribute.spelling (a : Attribute) : List Char :=
  (typeLabel a.type).toList ++ '=' :: escape a.value.toList

end NotaryNetwork.Name
