import NotaryNetwork.Contract.Pattern
import NotaryNetwork.Json.Value

/-!
# Schemas

A schema is a list of keywords, each a demand on documents; the order of the list is the order in
which breaches are reported. A schema can itself be written as a document.
-/

namespace NotaryNetwork.Contract

open Json (Str Value)

/-- The types of document values. A whole number is of both number types. -/
inductive ValueType
  | null
  | boolean
  | integer
  | number
  | string
  | array
  | object
deriving DecidableEq

namespace ValueType

def name : ValueType → String
  | null => "null"
  | boolean => "boolean"
  | integer => "integer"
  | number => "number"
  | string => "string"
  | array => "array"
  | object => "object"

def all : List ValueType := [null, boolean, integer, number, string, array, object]

/-- Whether a value is of a type. A double without a fractional part is an integer. -/
def admits : ValueType → Value → Bool
  | null, .null => true
  | boolean, .bool _ => true
  | integer, v => v.toInt?.isSome
  | number, v => v.isNumber
  | string, .string _ => true
  | array, .array _ => true
  | object, .object _ => true
  | _, _ => false

end ValueType

/-- A demand. Those on texts, arrays, numbers and objects hold of all other values. -/
inductive Keyword
  | remark (key text : String)
  | type (type : ValueType)
  | uniqueItems
  | required (keys : List String)
  /-- An object has no other keys than its declared properties. -/
  | closed
  | properties (schemas : List (String × List Keyword))
  /-- The items of an array follow a schema. -/
  | items (schema : List Keyword)
  | minLength (least : Nat)
  | minItems (least : Nat)
  | minimum (least : Int)
  | pattern (pattern : Pattern)

/-- A schema: its keywords in order. -/
abbrev Schema := List Keyword

mutual

def Keyword.toMember : Keyword → Str × Value
  | .remark key text => (key, .string text)
  | .type type => ("type", .string type.name)
  | .uniqueItems => ("uniqueItems", .bool true)
  | .required keys => ("required", .array (keys.map fun (key : String) => .string key))
  | .closed => ("additionalProperties", .bool false)
  | .properties schemas => ("properties", .object (propertyMembers schemas))
  | .items schema => ("items", .object (schemaMembers schema))
  | .minLength least => ("minLength", .int least)
  | .minItems least => ("minItems", .int least)
  | .minimum least => ("minimum", .int least)
  | .pattern pattern => ("pattern", .string pattern.source)

def schemaMembers : List Keyword → List (Str × Value)
  | [] => []
  | keyword :: rest => keyword.toMember :: schemaMembers rest

def propertyMembers : List (String × List Keyword) → List (Str × Value)
  | [] => []
  | (key, schema) :: rest => (key, .object (schemaMembers schema)) :: propertyMembers rest

end

def Schema.toDocument (schema : Schema) : Value :=
  .object (schemaMembers schema)

end NotaryNetwork.Contract
