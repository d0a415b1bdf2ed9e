import NotaryNetwork.Json.Value
import NotaryNetwork.Text.Hex

/-!
# Writing documents

The text of a document on one line, members in their order. A double is written out exactly: its
denominator is a power of two, so it has a finite decimal expansion.
-/

namespace NotaryNetwork.Json

/-- One character of a string: the two marks and control characters are escaped. -/
def printChar (c : Char) : List Char :=
  if c = '\x22' ∨ c = '\\' then ['\\', c]
  else if c = '\n' then ['\\', 'n']
  else if c.toNat < 0x20 then '\\' :: 'u' :: Text.Hex.padded 4 c.toNat
  else [c]

/-- One code point of a string: a lone surrogate is spelled by its code. -/
def printPoint (point : Nat) : List Char :=
  if isSurrogate point then Text.Ascii.escaped point else printChar (Char.ofNat point)

def printString (s : Str) : List Char :=
  '\x22' :: s.points.flatMap printPoint ++ ['\x22']

/-- A fraction whose denominator is a power of two, as digits and a power of ten. -/
def printFraction (q : Rat) : List Char :=
  let places := q.den.log2
  (toString (q.num * Nat.pow 5 places) ++ "e-" ++ toString places).toList

/-- A double; what is no number has its own word. -/
def printReal : Binary64 → List Char
  | .finite q => printFraction q
  | .infinite false => "Infinity".toList
  | .infinite true => "-Infinity".toList
  | .nan => "NaN".toList

mutual

def print : Value → List Char
  | .null => "null".toList
  | .bool true => "true".toList
  | .bool false => "false".toList
  | .int n => (toString n).toList
  | .real x => printReal x
  | .string s => printString s
  | .array items => '[' :: printItems items ++ [']']
  | .object members => '\x7b' :: printMembers members ++ ['\x7d']

/-- Values with commas between them. -/
def printItems : List Value → List Char
  | [] => []
  | [v] => print v
  | v :: vs => print v ++ ',' :: printItems vs

/-- Members with commas between them. -/
def printMembers : List (Str × Value) → List Char
  | [] => []
  | [(key, v)] => printString key ++ ':' :: print v
  | (key, v) :: ms => printString key ++ ':' :: print v ++ ',' :: printMembers ms

end

def Value.render (v : Value) : String :=
  String.ofList (print v)

end NotaryNetwork.Json
