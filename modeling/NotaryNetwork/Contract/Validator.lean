import NotaryNetwork.Contract.Schema
import NotaryNetwork.Json.Equality
import NotaryNetwork.Record.Issue

/-!
# Validation

The breaches of a schema by a document, in the order of the schema's keywords, of its declared
properties and of the items. A document is valid if there is none.
-/

namespace NotaryNetwork.Contract

open Json (Str Value)

/-- What is broken. -/
inductive Breach
  | wrongType
  | repeatedItems
  | missingKey (key : String)
  | unexpectedKeys (keys : List Str)
  | tooShort
  | tooFewItems
  | belowMinimum
  | mismatch
deriving DecidableEq

def Breach.keyword : Breach → String
  | wrongType => "type"
  | repeatedItems => "uniqueItems"
  | missingKey _ => "required"
  | unexpectedKeys _ => "additionalProperties"
  | tooShort => "minLength"
  | tooFewItems => "minItems"
  | belowMinimum => "minimum"
  | mismatch => "pattern"

/-- The message of a breach that names keys. -/
def Breach.message? : Breach → Option String
  | missingKey key => some s!"{Text.quoted key} is a required property"
  | unexpectedKeys keys =>
    let shown := ", ".intercalate (keys.map Str.quoted)
    let verb := if keys.length = 1 then "was" else "were"
    some s!"Additional properties are not allowed ({shown} {verb} unexpected)"
  | _ => none

/-- A breach, where it is in the document and where the broken keyword is in the schema. -/
structure Violation where
  path : List Step
  schemaPath : List String
  breach : Breach
deriving DecidableEq

/-- A violation below a step of the document and of the schema. -/
def Violation.below (step : Step) (keywords : List String) (v : Violation) : Violation :=
  { v with path := step :: v.path, schemaPath := keywords ++ v.schemaPath }

def Violation.here (breach : Breach) : Violation := ⟨[], [breach.keyword], breach⟩

/-- One violation if a demand is not met. -/
def demand (met : Bool) (breach : Breach) : List Violation :=
  if met then [] else [.here breach]

theorem demand_eq_nil {met : Bool} {breach : Breach} : demand met breach = [] ↔ met = true := by
  cases met <;> simp [demand]

def declaredKeys : Schema → List String
  | [] => []
  | .properties schemas :: rest => schemas.map (·.1) ++ declaredKeys rest
  | _ :: rest => declaredKeys rest

def places (vs : List Value) : List (Nat × Value) :=
  (List.range vs.length).zip vs

/-- Whether a number is at least a whole number; what is not a number is not below. -/
def atLeast (least : Int) : Value → Bool
  | .int n => least ≤ n
  | .real x => !x.less (.finite least)
  | _ => true

/-- The keys of an object that are not declared, in the order of their texts. -/
def unexpected (declared : List String) (members : List (Str × Value)) : List Str :=
  ((members.map (·.1)).filter (!(declared.map Str.text).contains ·)).mergeSort fun a b =>
    !b.before a

mutual

/-- The violations of one keyword of a schema that declares some keys. -/
def Keyword.violations (declared : List String) : Keyword → Value → List Violation
  | .type type, v => demand (type.admits v) .wrongType
  | .uniqueItems, .array vs => demand (Value.distinct vs) .repeatedItems
  | .required keys, .object members =>
    (keys.filter fun key => (members.lookup (.text key)).isNone).map fun key => .here (.missingKey key)
  | .closed, .object members =>
    match unexpected declared members with
    | [] => []
    | keys => [.here (.unexpectedKeys keys)]
  | .properties schemas, .object members => propertyViolations schemas members
  | .items schema, .array vs =>
    (places vs).flatMap fun (i, v) =>
      (keywordViolations (declaredKeys schema) schema v).map (.below (.item i) ["items"])
  | .minLength least, .string s => demand (least ≤ s.length) .tooShort
  | .minItems least, .array vs => demand (least ≤ vs.length) .tooFewItems
  | .minimum least, v => demand (atLeast least v) .belowMinimum
  | .pattern pattern, .string s => demand (pattern.acceptsStr s) .mismatch
  | _, _ => []

def keywordViolations (declared : List String) : List Keyword → Value → List Violation
  | [], _ => []
  | keyword :: rest, v => keyword.violations declared v ++ keywordViolations declared rest v

def propertyViolations : List (String × List Keyword) → List (Str × Value) → List Violation
  | [], _ => []
  | (key, schema) :: rest, members =>
    (match members.lookup (.text key) with
      | none => []
      | some v => (keywordViolations (declaredKeys schema) schema v).map
          (.below (.field key) ["properties", key])) ++ propertyViolations rest members

end

theorem type_eq_nil {declared : List String} {type : ValueType} {v : Value} :
    (Keyword.type type).violations declared v = [] ↔ type.admits v = true := by
  rw [Keyword.violations, demand_eq_nil]

namespace Schema

/-- All breaches of a schema by a value. -/
def violations (schema : Schema) (v : Value) : List Violation :=
  keywordViolations (declaredKeys schema) schema v

/-- The first violation is the one that is reported. -/
def validate (schema : Schema) (v : Value) : Except Violation Unit :=
  match schema.violations v with
  | [] => .ok ()
  | violation :: _ => .error violation

/-- Whether a document follows a schema. -/
def isValid (schema : Schema) (v : Value) : Bool :=
  (schema.violations v).isEmpty

end Schema

end NotaryNetwork.Contract
