import NotaryNetwork.Name.Attribute
import NotaryNetwork.Record.Fields

/-!
# Identities

The distinguished name of a participant: organization, locality and country, and possibly a common
name, an organization unit and a state. Two identities are equal when their attributes are.
-/

namespace NotaryNetwork

/-- Two capital letters. -/
def isCountryCode (s : String) : Bool :=
  match s.toList with
  | [a, b] => a.isUpper && b.isUpper
  | _ => false

/-- The code of a country. -/
abbrev CountryCode := { text : String // isCountryCode text = true }

/-- The name of a participant. -/
structure Identity where
  commonName : Option (Label 64)
  organizationUnit : Option (Label 64)
  organization : Label 128
  locality : Label 64
  state : Option (Label 64)
  country : CountryCode
deriving DecidableEq

namespace Identity

/-- The parts of an identity. -/
inductive Field
  | commonName
  | organizationUnit
  | organization
  | locality
  | state
  | country
deriving DecidableEq

namespace Field

/-- The fields in the order in which they are written. -/
def all : List Field := [commonName, organizationUnit, organization, locality, state, country]

/-- The type of the attribute that holds a field. -/
def type : Field → Oid
  | commonName => Name.commonName
  | organizationUnit => Name.organizationUnit
  | organization => Name.organization
  | locality => Name.locality
  | state => Name.state
  | country => Name.country

/-- The field that attributes of a type hold. -/
def ofType? (type : Oid) : Option Field :=
  all.find? (·.type = type)

def key : Field → String
  | commonName => "common_name"
  | organizationUnit => "organization_unit"
  | organization => "organization"
  | locality => "locality"
  | state => "state"
  | country => "country"

end Field

def get? (i : Identity) : Field → Option String
  | .commonName => i.commonName.map (·.val)
  | .organizationUnit => i.organizationUnit.map (·.val)
  | .organization => some i.organization.val
  | .locality => some i.locality.val
  | .state => i.state.map (·.val)
  | .country => some i.country.val

/-- The attributes that are there, in the order in which they are written. -/
def attributes (i : Identity) : List Name.Attribute :=
  Field.all.filterMap fun field => (i.get? field).map fun text => ⟨field.type, text⟩

/-- The spellings of the attributes. A common name whose size in bytes exceeds the limit of its
type has none. -/
def spellings (i : Identity) : Except Name.SizeFault (List (List Char)) :=
  i.attributes.mapM fun a => (Name.Attribute.make a.type a.value).map Name.Attribute.spelling

/-- The text of an identity: its attributes with a comma and a space between them. -/
def render (i : Identity) : Except Name.SizeFault String :=
  i.spellings.map fun parts => String.ofList ([',', ' '].intercalate parts)

end Identity

end NotaryNetwork
