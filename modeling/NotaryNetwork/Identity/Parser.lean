import NotaryNetwork.Identity.Basic
import NotaryNetwork.Name.Parser
import NotaryNetwork.Name.Separator
import NotaryNetwork.Text.Printable

/-!
# Reading identities

The text of a name, with blanks around it and after its separators, makes an identity if every
attribute holds a field, no field is held twice, and the fields are admitted. The attributes are
taken from the last group of the text to the first; this decides which of several faults is reported.
-/

namespace NotaryNetwork.Identity

/-! ## Fields -/

open Record (readLabel required optional)

/-- The name of the record type in reports. -/
def title : String := "Identity"

def readCountry (v : Json.Value) : Checked CountryCode := do
  let s ← Record.readText v
  if h : isCountryCode s then .ok ⟨s, h⟩ else .fail .patternMismatch

@[simp]
theorem readCountry_text (s : String) :
    readCountry (.text s) =
      if h : isCountryCode s then .ok ⟨s, h⟩ else .fail .patternMismatch := rfl

def ofFields (given : Field → Option Json.Value) : Checked Identity :=
  Checked.start Identity.mk
    |>.both (optional (Field.key .commonName) (readLabel 64) (given .commonName))
    |>.both (optional (Field.key .organizationUnit) (readLabel 64) (given .organizationUnit))
    |>.both (required (Field.key .organization) (readLabel 128) (given .organization))
    |>.both (required (Field.key .locality) (readLabel 64) (given .locality))
    |>.both (optional (Field.key .state) (readLabel 64) (given .state))
    |>.both (required (Field.key .country) readCountry (given .country))

/-- The identity of an object; other members are not looked at. -/
def ofMembers (members : List (Json.Str × Json.Value)) : Checked Identity :=
  ofFields fun field => members.lookup (.text field.key)

def override (i : Identity) (given : Field → Option Json.Value) : Checked Identity :=
  ofFields fun field => given field <|> (i.get? field).map Json.Value.text

/-! ## Texts -/

/-- Why a text makes no identity. -/
inductive ParseError
  | malformed (text : String) (fault : Name.Fault)
  /-- An attribute holds no field. -/
  | unsupported (text : String) (type : Oid)
  /-- A field is held twice. -/
  | duplicate (text : String) (type : Oid)
  | refused (issues : List Issue)
deriving DecidableEq

/-- The message of an error, apart from the issues of the fields. -/
def ParseError.message : ParseError → String
  | malformed text fault => s!"Malformed X.500 name {Text.quoted text}: {fault.message}"
  | unsupported text type => s!"Unsupported attribute {Name.typeLabel type} in {Text.quoted text}"
  | duplicate text type => s!"Duplicate attribute {Name.typeLabel type} in {Text.quoted text}"
  | refused _ => ""

/-- The text that the grammar is applied to. -/
def normalized (text : String) : List Char :=
  Name.squeeze (Text.trim Text.isBlank text.toList)

/-- The texts of fields that attributes hold, added to those before. -/
def collect (text : String) (found : List (Field × String)) :
    List Name.Attribute → Except ParseError (List (Field × String))
  | [] => .ok found
  | a :: rest =>
    match Field.ofType? a.type with
    | none => .error (.unsupported text a.type)
    | some field =>
      if found.any (·.1 = field) then .error (.duplicate text a.type)
      else collect text (found ++ [(field, a.value)]) rest

/-- The identity that a text spells. -/
def parse (text : String) : Except ParseError Identity := do
  let groups ← (Name.read (normalized text)).mapError (.malformed text)
  let found ← collect text [] groups.reverse.flatten
  (ofFields fun field => (found.lookup field).map Json.Value.text).mapError .refused

end NotaryNetwork.Identity
