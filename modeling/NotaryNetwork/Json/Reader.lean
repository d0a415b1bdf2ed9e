import NotaryNetwork.Json.Value
import NotaryNetwork.Table
import NotaryNetwork.Text.Decimal
import NotaryNetwork.Text.Hex
import NotaryNetwork.Text.Search

/-!
# Reading documents

`read` reads one value with blanks around it. Beside the standard grammar it takes `NaN`, `Infinity`
and `-Infinity` for numbers. A number without point and exponent is a whole number, of at most 4300
digits; every other number is a double. A repeated key takes its last value, at the place of the
first. Arrays and objects are nested to a depth of at most 986.

A reader that fails keeps the rest of the text that starts where the fault was found; the place
follows from what is left.
-/

namespace NotaryNetwork.Json

open Text (after? mostDigits ofDigits)

/-- What the text breaks. -/
inductive Fault
  | byteOrderMark
  | expectingValue
  | extraData
  | expectingName
  | expectingColon
  | expectingComma
  | unterminatedString
  | controlCharacter
  | invalidEscape
  | invalidUnicodeEscape
deriving DecidableEq

/-- A value that holds others. -/
inductive Container
  | array
  | object
deriving DecidableEq

/-- A fault and the text from its place on, a whole number with too many digits, or a container that
is nested too deeply. -/
inductive Failure
  | fault (kind : Fault) (rest : List Char)
  | tooManyDigits (count : Nat)
  | tooDeep (container : Container)

def isSpace (c : Char) : Bool :=
  c = ' ' || c = '\t' || c = '\n' || c = '\r'

/-- The text without its leading white space. -/
def skip (cs : List Char) : List Char :=
  cs.dropWhile isSpace

/-! ## Strings -/

/-- The character that a letter after a backslash stands for. -/
def simpleEscape? : Char → Option Char
  | '\x22' => some '\x22'
  | '\\' => some '\\'
  | '/' => some '/'
  | 'b' => some '\x08'
  | 'f' => some '\x0c'
  | 'n' => some '\n'
  | 'r' => some '\r'
  | 't' => some '\t'
  | _ => none

/-- The number that four hexadecimal digits stand for. -/
def codeUnit? (a b c d : Char) : Option Nat := do
  return (← Text.Hex.value? a) * 0x1000 + (← Text.Hex.value? b) * 0x100
    + (← Text.Hex.value? c) * 0x10 + (← Text.Hex.value? d)

/-- The code units up to the closing mark, and the text after it. A code unit escape needs a
character after its digits. -/
def readUnits (opening : List Char) : List Char → Except Failure (List Nat × List Char)
  | [] => .error (.fault .unterminatedString opening)
  | '\x22' :: cs => .ok ([], cs)
  | ['\\'] => .error (.fault .unterminatedString opening)
  | '\\' :: 'u' :: a :: b :: c :: d :: next :: cs =>
    match codeUnit? a b c d with
    | some n => do
      let (units, rest) ← readUnits opening (next :: cs)
      return (n :: units, rest)
    | none => .error (.fault .invalidUnicodeEscape ('u' :: a :: b :: c :: d :: next :: cs))
  | '\\' :: 'u' :: cs => .error (.fault .invalidUnicodeEscape ('u' :: cs))
  | '\\' :: e :: cs =>
    match simpleEscape? e with
    | some c => do
      let (units, rest) ← readUnits opening cs
      return (c.toNat :: units, rest)
    | none => .error (.fault .invalidEscape ('\\' :: e :: cs))
  | c :: cs =>
    if c.toNat < 0x20 then .error (.fault .controlCharacter (c :: cs))
    else do
      let (units, rest) ← readUnits opening cs
      return (c.toNat :: units, rest)

/-- The code points of code units: a high surrogate and a low one after it make one code point, and
a surrogate that stands alone is kept. -/
def joinUnits : List Nat → List Nat
  | m :: n :: units =>
    if 0xD800 ≤ m ∧ m ≤ 0xDBFF ∧ 0xDC00 ≤ n ∧ n ≤ 0xDFFF then
      (0x10000 + (m - 0xD800) * 0x400 + (n - 0xDC00)) :: joinUnits units
    else m :: joinUnits (n :: units)
  | units => units

/-- The text after an opening mark and the rest after the closing one; `opening` starts with the
opening mark. -/
def readString (opening cs : List Char) : Except Failure (Str × List Char) := do
  let (units, rest) ← readUnits opening cs
  return (.ofPoints (joinUnits units), rest)

/-! ## Numbers -/

/-- A point with digits after it, if there is one. -/
def takeFraction : List Char → Option (List Char) × List Char
  | '.' :: d :: cs =>
    if d.isDigit then (some ((d :: cs).takeWhile Char.isDigit), (d :: cs).dropWhile Char.isDigit)
    else (none, '.' :: d :: cs)
  | cs => (none, cs)

/-- The sign of an exponent and the text after it. -/
def takeSign : List Char → Bool × List Char
  | '-' :: cs => (true, cs)
  | '+' :: cs => (false, cs)
  | cs => (false, cs)

/-- An exponent, if there is one with digits. -/
def takeExponent : List Char → Option Int × List Char
  | [] => (none, [])
  | e :: cs =>
    if e = 'e' ∨ e = 'E' then
      let (negative, ds) := takeSign cs
      match ds.takeWhile Char.isDigit with
      | [] => (none, e :: cs)
      | digits =>
        let n : Int := ofDigits digits
        (some (if negative then -n else n), ds.dropWhile Char.isDigit)
    else (none, e :: cs)

/-- The digits before the point: a zero alone, or digits that start with no zero. -/
def takeWhole : List Char → Option (List Char × List Char)
  | '0' :: cs => some (['0'], cs)
  | c :: cs =>
    if c.isDigit then some ((c :: cs).takeWhile Char.isDigit, (c :: cs).dropWhile Char.isDigit)
    else none
  | [] => none

/-- A number after its sign; `start` is the text from the sign on. -/
def readNumber (start : List Char) (negative : Bool) (cs : List Char) :
    Except Failure (Value × List Char) :=
  match takeWhole cs with
  | none => .error (.fault .expectingValue start)
  | some (whole, cs) =>
    let (fraction, cs) := takeFraction cs
    let (exponent, cs) := takeExponent cs
    match fraction, exponent with
    | none, none =>
      if mostDigits < whole.length then .error (.tooManyDigits whole.length)
      else
        let n : Int := ofDigits whole
        .ok (.int (if negative then -n else n), cs)
    | _, _ =>
      let after := fraction.getD []
      let digits := whole ++ after
      let x := Binary64.ofDecimal (ofDigits digits) digits.length
        (exponent.getD 0 - after.length)
      .ok (.real (if negative then x.neg else x), cs)

/-! ## Values -/

def readWord? (cs : List Char) : Option (Value × List Char) :=
  (after? "null".toList cs).map (.null, ·) <|>
  (after? "true".toList cs).map (.bool true, ·) <|>
  (after? "false".toList cs).map (.bool false, ·) <|>
  (after? "NaN".toList cs).map (.real .nan, ·) <|>
  (after? "Infinity".toList cs).map (.real (.infinite false), ·) <|>
  (after? "-Infinity".toList cs).map (.real (.infinite true), ·)

mutual

/-- One value at the start of the text. The first argument bounds the number of steps, the second
one the levels of containers. -/
def readValue : Nat → Nat → List Char → Except Failure (Value × List Char)
  | 0, _, cs => .error (.fault .expectingValue cs)
  | fuel + 1, room, cs =>
    match cs with
    | '\x22' :: rest => do
      let (s, rest) ← readString cs rest
      return (.string s, rest)
    | '[' :: rest =>
      match room, skip rest with
      | 0, _ => .error (.tooDeep .array)
      | _ + 1, ']' :: rest => .ok (.array [], rest)
      | room + 1, rest => do
        let (items, rest) ← readItems fuel room rest
        return (.array items, rest)
    | '\x7b' :: rest =>
      match room, skip rest with
      | 0, _ => .error (.tooDeep .object)
      | _ + 1, '\x7d' :: rest => .ok (.object [], rest)
      | room + 1, rest => do
        let (members, rest) ← readMembers fuel room [] rest
        return (.object members, rest)
    | _ =>
      match readWord? cs with
      | some found => .ok found
      | none =>
        match cs with
        | '-' :: rest => readNumber cs true rest
        | _ => readNumber cs false cs

/-- The items up to the closing bracket. -/
def readItems : Nat → Nat → List Char → Except Failure (List Value × List Char)
  | 0, _, cs => .error (.fault .expectingValue cs)
  | fuel + 1, room, cs => do
    let (item, rest) ← readValue fuel room cs
    match skip rest with
    | ']' :: rest => return ([item], rest)
    | ',' :: rest => do
      let (items, rest) ← readItems fuel room (skip rest)
      return (item :: items, rest)
    | rest => throw (.fault .expectingComma rest)

/-- The members up to the closing brace, added to those before. -/
def readMembers : Nat → Nat → List (Str × Value) → List Char →
    Except Failure (List (Str × Value) × List Char)
  | 0, _, _, cs => .error (.fault .expectingValue cs)
  | fuel + 1, room, members, cs =>
    match cs with
    | '\x22' :: rest => do
      let (key, rest) ← readString cs rest
      match skip rest with
      | ':' :: rest => do
        let (value, rest) ← readValue fuel room (skip rest)
        let members := put key value members
        match skip rest with
        | '\x7d' :: rest => return (members, rest)
        | ',' :: rest => readMembers fuel room members (skip rest)
        | rest => throw (.fault .expectingComma rest)
      | rest => throw (.fault .expectingColon rest)
    | _ => .error (.fault .expectingName cs)

end

/-- The most levels of nested containers. -/
def maxDepth : Nat := 986

def readAll (cs : List Char) : Except Failure Value := do
  match cs with
  | '\uFEFF' :: _ => throw (.fault .byteOrderMark cs)
  | _ =>
    let (value, rest) ← readValue (2 * cs.length + 3) maxDepth (skip cs)
    match skip rest with
    | [] => return value
    | rest => throw (.fault .extraData rest)

/-! ## Errors -/

/-- Why a text is no document. -/
inductive ReadError
  /-- The text breaks the grammar at a place, counted in characters from 0. -/
  | invalid (kind : Fault) (position line column : Nat)
  /-- A whole number has more digits than are read. -/
  | tooManyDigits (count : Nat)
  | tooDeep (container : Container)
deriving DecidableEq

/-- The text of a fault, without its place. -/
def Fault.message : Fault → String
  | .byteOrderMark => "Unexpected UTF-8 BOM (decode using utf-8-sig)"
  | .expectingValue => "Expecting value"
  | .extraData => "Extra data"
  | .expectingName => "Expecting property name enclosed in double quotes"
  | .expectingColon => "Expecting ':' delimiter"
  | .expectingComma => "Expecting ',' delimiter"
  | .unterminatedString => "Unterminated string starting at"
  | .controlCharacter => "Invalid control character at"
  | .invalidEscape => "Invalid \\escape"
  | .invalidUnicodeEscape => "Invalid \\uXXXX escape"

def Container.name : Container → String
  | .array => "array"
  | .object => "object"

/-- Names the place by line and column, both counted from 1, and by the count of characters. -/
def ReadError.message : ReadError → String
  | .invalid kind position line column =>
    s!"{kind.message}: line {line} column {column} (char {position})"
  | .tooManyDigits count =>
    s!"Exceeds the limit ({mostDigits} digits) for integer string conversion: value has {count} digits; use sys.set_int_max_str_digits() to increase the limit"
  | .tooDeep container =>
    s!"maximum recursion depth exceeded while decoding a JSON {container.name} from a unicode string"

/-- The place of a failure in its text. -/
def Failure.locate (cs : List Char) : Failure → ReadError
  | .tooManyDigits count => .tooManyDigits count
  | .tooDeep container => .tooDeep container
  | .fault kind rest =>
    let position := cs.length - rest.length
    let passed := cs.take position
    let column := (passed.reverse.takeWhile (· ≠ '\n')).length + 1
    .invalid kind position (passed.count '\n' + 1) column

def read (text : String) : Except ReadError Value :=
  (readAll text.toList).mapError (Failure.locate text.toList)

end NotaryNetwork.Json
