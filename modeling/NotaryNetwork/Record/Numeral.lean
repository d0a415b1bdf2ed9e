import NotaryNetwork.Json.Value
import NotaryNetwork.Record.Issue
import NotaryNetwork.Text.Decimal
import NotaryNetwork.Text.Search

/-!
# Integers of records

An integer field takes whole numbers, doubles without a fractional part within 64 bits, truth values
for 0 and 1, and texts. A text is tidied before it is read: white space around it, a plus sign,
leading zeros, a point with zeros after it and single underscores are taken away. What remains is
read strictly: a minus sign at most, then zero alone or digits that do not start with zero, at most
`Text.mostDigits` of them.
-/

namespace NotaryNetwork.Record

/-! ## Reading strictly -/

/-- What a text says about an integer. -/
inductive Numeral
  | value (n : Int)
  | unreadable
  /-- It starts with more digits than are read. -/
  | tooLong
deriving DecidableEq

/-- The number of digits that do not start with zero. Their count is looked at first. -/
def readDigits (cs : List Char) : Numeral :=
  let digits := cs.takeWhile (·.isDigit)
  if Text.mostDigits < digits.length then .tooLong
  else if digits.length = cs.length ∧ digits ≠ [] then .value (Text.ofDigits digits)
  else .unreadable

/-- Zero alone, or a number that does not start with zero. -/
def readUnsigned : List Char → Numeral
  | ['0'] => .value 0
  | '0' :: _ => .unreadable
  | cs => readDigits cs

/-- A number without a plus sign, leading zeros or anything between the digits. -/
def readStrictly : List Char → Numeral
  | '-' :: cs =>
    match readUnsigned cs with
    | .value n => .value (-n)
    | fault => fault
  | cs => readUnsigned cs

/-! ## Tidying -/

/-- What follows zeros and underscores, given the character before it. A point keeps that character,
and so does the end; a minus sign ends the zeros as a digit does. -/
def afterZeros (last : Char) : List Char → Option (List Char)
  | [] => some [last]
  | c :: cs =>
    if c = '0' ∨ c = '_' then afterZeros c cs
    else if c = '.' then some (last :: c :: cs)
    else if c.isDigit ∨ c = '-' then some (c :: cs)
    else none

/-- The text without leading zeros. It starts with a digit or with a minus sign. -/
def dropZeros? : List Char → Option (List Char)
  | '0' :: cs => afterZeros '0' cs
  | c :: cs => if c.isDigit ∨ c = '-' then some (c :: cs) else none
  | [] => none

/-- The text before a point that has zeros after it, where there is one. -/
def dropZeroFraction (cs : List Char) : List Char :=
  match cs.dropWhile (· ≠ '.') with
  | '.' :: z :: zeros => if (z :: zeros).all (· = '0') then cs.takeWhile (· ≠ '.') else cs
  | _ => cs

/-- Two underscores stand side by side. -/
def hasDoubleUnderscore : List Char → Bool
  | '_' :: '_' :: _ => true
  | _ :: cs => hasDoubleUnderscore cs
  | [] => false

/-- The text without underscores, if they are single and inside it. -/
def dropUnderscores (cs : List Char) : List Char :=
  if cs.head? = some '_' ∨ cs.getLast? = some '_' ∨ hasDoubleUnderscore cs then cs
  else cs.filter (· ≠ '_')

/-- The digits of a text without its sign, ready for strict reading. -/
def tidyDigits? (cs : List Char) : Option (List Char) :=
  (dropZeros? cs).map fun cs => dropUnderscores (dropZeroFraction cs)

/-- The text ready for strict reading. A plus sign is not followed by a minus sign. -/
def tidy? : List Char → Option (List Char)
  | '-' :: cs => (tidyDigits? cs).map ('-' :: ·)
  | '+' :: '-' :: _ => none
  | '+' :: cs => tidyDigits? cs
  | cs => tidyDigits? cs

/-- The integer that a text without white space around it spells. -/
def readNumeral (cs : List Char) : Numeral :=
  match tidy? cs with
  | some cs => readStrictly cs
  | none => .unreadable

/-! ## Fields -/

def readInteger : Json.Value → Checked Int
  | .bool b => .ok (if b then 1 else 0)
  | .int n => .ok n
  | .real (.finite q) =>
    if q.den ≠ 1 then .fail .fractional
    else if q.num.natAbs < 0x8000000000000000 then .ok q.num
    else .fail .outOfRange
  | .real _ => .fail .notFinite
  | .string (.torn _) => .fail .torn
  | .string (.text s) =>
    match readNumeral (Text.trim Text.isWhiteSpace s.toList) with
    | .value n => .ok n
    | .tooLong => .fail .outOfRange
    | .unreadable => .fail .unreadableInteger
  | _ => .fail .notInteger

end NotaryNetwork.Record
