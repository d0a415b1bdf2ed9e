import NotaryNetwork.Name.Attribute
import NotaryNetwork.Text.Decimal
import NotaryNetwork.Text.Hex
import NotaryNetwork.Text.Utf8

/-!
# Reading names

A name is a sequence of groups with commas between them, a group is one or more attributes with plus
signs between them, and an attribute is a type, an equals sign and a value. A type is spelled by its
short name or by its arcs. A value is spelled by `#` and pairs of hexadecimal digits, or by
characters of which some must be escaped: a backslash makes the special character after it stand for
itself, and runs of backslashed pairs of digits stand for UTF-8.

Faults are found from left to right. An attribute is checked when its value has been read, the
attributes of a group when the group ends.
-/

namespace NotaryNetwork.Name

open Text (isDecimalDigit isAlphanumeric ofDigits)

/-- What is wrong with a name. -/
inductive Fault
  /-- The text does not follow the grammar. -/
  | malformed
  /-- An encoded value has a digit that is not ASCII. -/
  | digitNotAscii
  /-- An encoded value has a letter that is no hexadecimal digit. -/
  | digitNotHexadecimal
  | notUtf8 (error : Text.Utf8.DecodeError)
  /-- A value has a size that its type does not admit. -/
  | size (fault : SizeFault)
  /-- A group has one attribute twice. -/
  | repeated
  /-- The arcs of a type make no object identifier. -/
  | invalidType
deriving DecidableEq

/-- The text of a fault; for the grammar there is none. -/
def Fault.message : Fault → String
  | malformed => ""
  | digitNotAscii => "string argument should contain only ASCII characters"
  | digitNotHexadecimal => "Non-hexadecimal digit found"
  | notUtf8 error => error.message
  | size fault => fault.message
  | repeated => "duplicate attributes are not allowed"
  | invalidType => "error parsing asn1 value: ParseError \x7b kind: InvalidValue \x7d"

/-! ## Types -/

def startsArc (c : Char) : Bool := c.isDigit

/-- The arcs from one that has been begun: a zero stands alone, any other digit may be followed by
decimal digits of every script. -/
def takeArcs (arc : List Char) : List Char → List (List Char) × List Char
  | [] => ([arc], [])
  | [c] =>
    if isDecimalDigit c ∧ arc ≠ ['0'] then takeArcs (arc ++ [c]) [] else ([arc], [c])
  | c :: d :: cs =>
    if isDecimalDigit c ∧ arc ≠ ['0'] then takeArcs (arc ++ [c]) (d :: cs)
    else if c = '.' ∧ startsArc d then
      let (arcs, rest) := takeArcs [d] cs
      (arc :: arcs, rest)
    else ([arc], c :: d :: cs)

/-- Two or more arcs at the start of the text. -/
def takeOid? : List Char → Option (List (List Char) × List Char)
  | [] => none
  | c :: cs =>
    if startsArc c then
      match takeArcs [c] cs with
      | ([_], _) => none
      | found => some found
    else none

/-- The number of an arc, if its digits are ASCII. -/
def arcValue? (arc : List Char) : Option Nat :=
  if arc.all Char.isDigit then some (ofDigits arc) else none

def oidOfArcs? (arcs : List (List Char)) : Option Oid := do
  Oid.ofArcs? (← arcs.mapM arcValue?)

/-- A type at the start of the text, by its arcs or its short name, and the text after it. -/
def takeType (cs : List Char) : Except Fault (Oid × List Char) :=
  match takeOid? cs with
  | some (arcs, rest) =>
    match oidOfArcs? arcs with
    | some type => .ok (type, rest)
    | none => .error .invalidType
  | none =>
    match typeOfShortName? (String.ofList (cs.takeWhile (· ≠ '='))) with
    | some type => .ok (type, cs.dropWhile (· ≠ '='))
    | none => .error .malformed

/-- A type at the start of the text, and the text after the equals sign. -/
def readType (cs : List Char) : Except Fault (Oid × List Char) := do
  let (type, rest) ← takeType cs
  match rest with
  | '=' :: rest => return (type, rest)
  | _ => throw .malformed

/-! ## Values -/

/-- The characters that a backslash makes stand for themselves. -/
def specials : List Char := ['\\', ' ', '#', '=', '\x22', '+', ',', ';', '<', '>']

/-- The characters that stand in a value only if escaped. -/
def reserved : List Char := ['\x00', '\x22', '+', ',', ';', '<', '>', '\\']

/-- A piece of a value. -/
inductive Piece
  /-- A character that stands for itself. -/
  | plain (c : Char)
  /-- A special character after a backslash. -/
  | special (c : Char)
  /-- Two digits after a backslash, for one byte. -/
  | octet (a b : Char)
deriving DecidableEq

/-- The longest run of pieces, and the text after it. -/
def takePieces : List Char → List Piece × List Char
  | [] => ([], [])
  | '\\' :: c :: cs =>
    if specials.contains c then
      let (pieces, rest) := takePieces cs
      (.special c :: pieces, rest)
    else match cs with
      | [] => ([], ['\\', c])
      | d :: cs =>
        if isAlphanumeric c ∧ isAlphanumeric d then
          let (pieces, rest) := takePieces cs
          (.octet c d :: pieces, rest)
        else ([], '\\' :: c :: d :: cs)
  | c :: cs =>
    if reserved.contains c then ([], c :: cs)
    else
      let (pieces, rest) := takePieces cs
      (.plain c :: pieces, rest)

theorem takePieces_plain {c : Char} (free : reserved.contains c = false) (cs : List Char) :
    takePieces (c :: cs) = (.plain c :: (takePieces cs).1, (takePieces cs).2) := by
  have back : c ≠ '\\' := by rintro rfl; exact absurd free (by decide)
  rw [takePieces, free]
  · rfl
  · exact fun _ _ e _ => back e

theorem takePieces_special {c : Char} (known : specials.contains c = true) (cs : List Char) :
    takePieces ('\\' :: c :: cs) = (.special c :: (takePieces cs).1, (takePieces cs).2) := by
  cases cs <;> simp only [takePieces, known, if_true]

theorem takePieces_octet {a b : Char} (free : specials.contains a = false)
    (ha : isAlphanumeric a = true) (hb : isAlphanumeric b = true) (cs : List Char) :
    takePieces ('\\' :: a :: b :: cs) = (.octet a b :: (takePieces cs).1, (takePieces cs).2) := by
  simp only [takePieces, free, ha, hb, Bool.false_eq_true, and_self, if_true, if_false]

/-- Pieces without the bare spaces at their end, and those spaces. -/
def splitTrailing : List Piece → List Piece × List Char
  | [] => ([], [])
  | p :: ps =>
    match splitTrailing ps with
    | ([], spaces) => if p = .plain ' ' then ([], ' ' :: spaces) else ([p], spaces)
    | (kept, spaces) => (p :: kept, spaces)

/-- The pieces of a value, which neither starts nor ends with a bare space, and the text after it. -/
def takeValue (cs : List Char) : List Piece × List Char :=
  match cs with
  | ' ' :: _ => ([], cs)
  | _ =>
    let (pieces, rest) := takePieces cs
    let (kept, spaces) := splitTrailing pieces
    (kept, spaces ++ rest)

/-- The text that a run of pairs of digits stands for. -/
def decodeOctets (run : List (Char × Char)) : Except Fault (List Char) :=
  let digits := run.flatMap fun (a, b) => [a, b]
  if !digits.all Text.Ascii.contains then .error .digitNotAscii
  else match Text.Hex.decode? digits with
    | none => .error .digitNotHexadecimal
    | some bytes => (Text.Utf8.decode bytes).mapError .notUtf8

/-- The text of pieces after a run of octets. -/
def decodeFrom (run : List (Char × Char)) : List Piece → Except Fault (List Char)
  | [] => decodeOctets run
  | .octet a b :: pieces => decodeFrom (run ++ [(a, b)]) pieces
  | .plain c :: pieces => do
    let before ← decodeOctets run
    return before ++ c :: (← decodeFrom [] pieces)
  | .special c :: pieces => do
    let before ← decodeOctets run
    return before ++ c :: (← decodeFrom [] pieces)

def decodePieces (pieces : List Piece) : Except Fault (List Char) :=
  decodeFrom [] pieces

/-- Pairs of digits or letters, as many as there are, and the text after them. -/
def takeDigitPairs : List Char → List (Char × Char) × List Char
  | a :: b :: cs =>
    if isAlphanumeric a ∧ isAlphanumeric b then
      let (pairs, rest) := takeDigitPairs cs
      ((a, b) :: pairs, rest)
    else ([], a :: b :: cs)
  | cs => ([], cs)

/-- A value at the start of the text, and the text after it. -/
def readValue (cs : List Char) : Except Fault (List Char × List Char) :=
  match cs with
  | '#' :: digits =>
    match takeDigitPairs digits with
    | ([], _) => .error .malformed
    | (pairs, rest) => (decodeOctets pairs).map (·, rest)
  | _ =>
    let (pieces, rest) := takeValue cs
    (decodePieces pieces).map (·, rest)

/-! ## Names -/

/-- An attribute at the start of the text, and the text after it. -/
def readAttribute (cs : List Char) : Except Fault (Attribute × List Char) := do
  let (type, rest) ← readType cs
  let (value, rest) ← readValue rest
  let made ← (Attribute.make type (String.ofList value)).mapError .size
  return (made, rest)

/-- The groups from an attribute on, which follows those in `group`. The first argument bounds the
number of attributes. -/
def readGroups : Nat → List Attribute → List Char → Except Fault (List (List Attribute))
  | 0, _, _ => .error .malformed
  | fuel + 1, group, cs => do
    let (next, rest) ← readAttribute cs
    let group := group ++ [next]
    match rest with
    | '+' :: rest => readGroups fuel group rest
    | _ =>
      if ¬ group.Nodup then throw .repeated
      match rest with
      | [] => return [group]
      | ',' :: rest => return group :: (← readGroups fuel [] rest)
      | _ => throw .malformed

/-- The groups of a name in the order of the text. The empty text is the name without attributes. -/
def read (cs : List Char) : Except Fault (List (List Attribute)) :=
  match cs with
  | [] => .ok []
  | _ => readGroups (cs.length + 1) [] cs

end NotaryNetwork.Name
