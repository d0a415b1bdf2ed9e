import NotaryNetwork.Contract.Schema
import NotaryNetwork.Json.Equality

/-!
# Documents that are schemas

A document is a schema if it is a truth value or an object whose known keywords have values of the
right form. Unknown keywords are free.
-/

namespace NotaryNetwork.Contract

open Json (Str Value)

def isTypeName : Value → Bool
  | .string s => ValueType.all.any (Str.text ·.name == s)
  | _ => false

/-- A whole number that is not negative. -/
def isCount (v : Value) : Bool :=
  v.toInt?.any (0 ≤ ·)

def isText : Value → Bool
  | .string _ => true
  | _ => false

def isTextList : Value → Bool
  | .array vs => vs.all isText && Value.distinct vs
  | _ => false

/-- The name of a type, or a list of different names that is not empty. -/
def isTypeChoice : Value → Bool
  | .array vs => !vs.isEmpty && vs.all isTypeName && Value.distinct vs
  | v => isTypeName v

def textKeywords : List String := ["title", "description", "pattern", "$schema", "$id"]

/-- The keywords that are known and whose values are no objects. -/
def plainKeywords : List String :=
  ["type", "minLength", "minItems", "minimum", "required", "uniqueItems"] ++ textKeywords

mutual

def isSchema : Value → Bool
  | .bool _ => true
  | .object members => keywordsFit members
  | _ => false

/-- Whether the keywords of an object have values of the right form. -/
def keywordsFit : List (Str × Value) → Bool
  | [] => true
  | (key, v) :: rest => keywordFits key v && keywordsFit rest

/-- Whether a keyword has a value of the right form. -/
def keywordFits (key : Str) : Value → Bool
  | .object members =>
    if key = "properties" then areSchemas members
    else if key = "items" ∨ key = "additionalProperties" then keywordsFit members
    else !(plainKeywords.map Str.text).contains key
  | v =>
    if key = "type" then isTypeChoice v
    else if key = "minLength" ∨ key = "minItems" then isCount v
    else if key = "minimum" then v.isNumber
    else if key = "required" then isTextList v
    else if key = "uniqueItems" ∨ key = "items" ∨ key = "additionalProperties" then
      ValueType.boolean.admits v
    else if key = "properties" then false
    else if (textKeywords.map Str.text).contains key then isText v
    else true

/-- Whether the values of an object are schemas. -/
def areSchemas : List (Str × Value) → Bool
  | [] => true
  | (_, v) :: rest => isSchema v && areSchemas rest

end

end NotaryNetwork.Contract
