import NotaryNetwork.Json.Value

/-!
# Values in messages

A message shows a value by a literal. A double has the fewest digits that read back as it, and of
those the nearest; it is written with a point if that leaves at most 16 digits before the point or at
most four zeros after it, and with an exponent otherwise.
-/

namespace NotaryNetwork.Json

namespace Binary64

/-- The exponent of the first digit of a positive fraction. -/
def firstPlace (num den : Nat) : Int :=
  let width := (toString num).length
  let guess : Int := width - (toString den).length
  let reached : Bool :=
    if 0 ≤ guess then den * Nat.pow 10 guess.toNat ≤ num
    else den ≤ num * Nat.pow 10 (-guess).toNat
  if reached then guess else guess - 1

/-- The multiple of a power of ten that is nearest to a positive fraction and reads back as it, a tie
to the even one. -/
def readBack? (num den : Nat) (place : Int) : Option Nat :=
  let (n, d) :=
    if 0 ≤ place then (num, den * Nat.pow 10 place.toNat)
    else (num * Nat.pow 10 (-place).toNat, den)
  let near := roundDiv n d
  let far := if near = n / d then near + 1 else near - 1
  [near, far].find? fun m => ofDecimal m (toString m).length place = finite (mkRat num den)

/-- The fewest digits of a positive fraction, and the exponent of the first one. -/
def shortest (num den : Nat) : List Char × Int :=
  let first := firstPlace num den
  let read := fun (more : Nat) => (readBack? num den (first - more)).map (·, first - more)
  let (m, place) := ((List.range 17).findSome? read).getD (0, 0)
  let digits := (toString m).toList
  let kept := (digits.reverse.dropWhile (· = '0')).reverse
  (kept, place + digits.length - 1)

/-- A digit, a point if more digits follow, and an exponent of two digits or more. -/
def scientific (digits : List Char) (first : Int) : List Char :=
  let exponent := toString first.natAbs
  let padding := if exponent.length < 2 then ['0'] else []
  let fraction := if digits.length = 1 then [] else '.' :: digits.drop 1
  digits.take 1 ++ fraction ++ 'e' :: (if first < 0 then '-' else '+') :: padding ++ exponent.toList

/-- Digits around a point, with zeros where there are no digits. -/
def positional (digits : List Char) (first : Int) : List Char :=
  if first < 0 then '0' :: '.' :: List.replicate (-first - 1).toNat '0' ++ digits
  else
    let whole := first.toNat + 1
    let fraction := if digits.length ≤ whole then ['0'] else digits.drop whole
    digits.take whole ++ List.replicate (whole - digits.length) '0' ++ '.' :: fraction

def positiveLiteral (num den : Nat) : List Char :=
  let (digits, first) := shortest num den
  if -4 ≤ first ∧ first < 16 then positional digits first else scientific digits first

def literal : Binary64 → List Char
  | finite q =>
    if q.num = 0 then "0.0".toList
    else if q.num < 0 then '-' :: positiveLiteral q.num.natAbs q.den
    else positiveLiteral q.num.natAbs q.den
  | infinite false => "inf".toList
  | infinite true => "-inf".toList
  | nan => "nan".toList

end Binary64

mutual

def literal : Value → List Char
  | .null => "None".toList
  | .bool true => "True".toList
  | .bool false => "False".toList
  | .int n => (toString n).toList
  | .real x => x.literal
  | .string s => s.quoted.toList
  | .array items => '[' :: literalItems items ++ [']']
  | .object members => '\x7b' :: literalMembers members ++ ['\x7d']

/-- Literals with commas between them. -/
def literalItems : List Value → List Char
  | [] => []
  | [v] => literal v
  | v :: vs => literal v ++ ',' :: ' ' :: literalItems vs

/-- Literals of members with commas between them. -/
def literalMembers : List (Str × Value) → List Char
  | [] => []
  | [(key, v)] => key.quoted.toList ++ ':' :: ' ' :: literal v
  | (key, v) :: ms =>
    key.quoted.toList ++ ':' :: ' ' :: literal v ++ ',' :: ' ' :: literalMembers ms

end

def Value.shown (v : Value) : String := String.ofList (literal v)

end NotaryNetwork.Json
