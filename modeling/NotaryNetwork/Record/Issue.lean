/-!
# Issues of records

A record made from a document is checked field by field, and all that is wrong is reported at once. An
issue names its place, from the outermost record inward, and its cause. `Checked` is a result that
collects issues: where two checks fail, the issues of the first come first.
-/

namespace NotaryNetwork

/-- A step into a document: a field of a record or an item of a list. -/
inductive Step
  | field (name : String)
  | item (index : Nat)
deriving DecidableEq

/-- What is wrong at a place. -/
inductive Cause
  /-- A required field is absent. -/
  | missing
  | notString
  /-- A text has a lone surrogate in it. -/
  | torn
  | tooShort
  /-- A text has more characters than the limit. -/
  | tooLong (limit : Nat)
  /-- A country is not given by two capital letters. -/
  | patternMismatch
  | notList
  /-- A list that needs an item has none, or none that passes. -/
  | noItem
  /-- The value is neither an object nor a value of the record type. -/
  | notRecord (model : String)
  | notInteger
  | unreadableInteger
  | fractional
  /-- A number is too large to be taken for an integer. -/
  | outOfRange
  | notFinite
  | stated (text : String)
deriving DecidableEq

namespace Cause

def code : Cause → String
  | missing => "missing"
  | notString => "string_type"
  | torn => "string_unicode"
  | tooShort => "string_too_short"
  | tooLong _ => "string_too_long"
  | patternMismatch => "string_pattern_mismatch"
  | notList => "tuple_type"
  | noItem => "too_short"
  | notRecord _ => "model_type"
  | notInteger => "int_type"
  | unreadableInteger => "int_parsing"
  | fractional => "int_from_float"
  | outOfRange => "int_parsing_size"
  | notFinite => "finite_number"
  | stated _ => "value_error"

def message : Cause → String
  | missing => "Field required"
  | notString => "Input should be a valid string"
  | torn => "Input should be a valid string, unable to parse raw data as a unicode string"
  | tooShort => "String should have at least 1 character"
  | tooLong limit => s!"String should have at most {limit} characters"
  | patternMismatch => "String should match pattern '^[A-Z]\x7b2\x7d$'"
  | notList => "Input should be a valid tuple"
  | noItem => "Tuple should have at least 1 item after validation, not 0"
  | notRecord model => s!"Input should be a valid dictionary or instance of {model}"
  | notInteger => "Input should be a valid integer"
  | unreadableInteger => "Input should be a valid integer, unable to parse string as an integer"
  | fractional => "Input should be a valid integer, got a number with a fractional part"
  | outOfRange => "Unable to parse input string as an integer, exceeded maximum size"
  | notFinite => "Input should be a finite number"
  | stated text => "Value error, " ++ text

end Cause

/-- An issue: where it is and why. -/
structure Issue where
  place : List Step
  cause : Cause
deriving DecidableEq

/-- A record that could not be made: the outermost record type and the issues. -/
structure RecordError where
  title : String
  issues : List Issue
deriving DecidableEq

/-- A result, or all the issues found. -/
abbrev Checked (α : Type) := Except (List Issue) α

namespace Checked

variable {α β : Type}

def fail (cause : Cause) : Checked α :=
  .error [⟨[], cause⟩]

/-- A constructor whose arguments are to be checked. -/
def start (make : α) : Checked α := .ok make

def within (step : Step) (checked : Checked α) : Checked α :=
  checked.mapError (·.map fun issue => { issue with place := step :: issue.place })

def both (first : Checked (α → β)) (second : Checked α) : Checked β :=
  match first, second with
  | .ok f, .ok a => .ok (f a)
  | .ok _, .error issues => .error issues
  | .error issues, .ok _ => .error issues
  | .error issues, .error more => .error (issues ++ more)

def all : List (Checked α) → Checked (List α)
  | [] => .ok []
  | checked :: rest => both (checked.map List.cons) (all rest)

def noneSucceeds (checks : List (Checked α)) : Bool :=
  checks.all fun checked => checked.toOption.isNone

/-- A record of a model, whose issues are reported under its title. -/
def titled (title : String) (checked : Checked α) : Except RecordError α :=
  checked.mapError (⟨title, ·⟩)

end Checked

end NotaryNetwork
