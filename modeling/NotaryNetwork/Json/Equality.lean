import NotaryNetwork.Json.Value
import NotaryNetwork.Sorting.Natural

/-!
# Equality of documents

Two equalities, and the order that goes with the second. `same` compares numbers exactly whichever
way they are written, keeps truth values apart from numbers and does not look at the order of
members. `alike` also takes a truth value for the number 0 or 1. `less?` orders numbers, texts and
arrays, item by item, and leaves other values without an order. `distinct` decides whether an array
repeats an item.
-/

namespace NotaryNetwork.Json

namespace Value

/-- Exact comparison of a whole number and a double. -/
def sameNumber (n : Int) : Binary64 → Bool
  | .finite q => (n : Rat) = q
  | _ => false

/-- The number that a truth value is taken for. -/
def unit (b : Bool) : Int := if b then 1 else 0

mutual

/-- Equality in which a truth value is equal to itself alone. -/
def same : Value → Value → Bool
  | .null, .null => true
  | .bool a, .bool b => a == b
  | .int m, .int n => m == n
  | .int m, .real y => sameNumber m y
  | .real x, .int n => sameNumber n x
  | .real x, .real y => x == y
  | .string s, .string t => s == t
  | .array xs, .array ys => sameItems xs ys
  | .object xs, .object ys => xs.length == ys.length && sameMembers xs ys
  | _, _ => false

/-- Arrays of one length with the same items. -/
def sameItems : List Value → List Value → Bool
  | [], [] => true
  | x :: xs, y :: ys => same x y && sameItems xs ys
  | _, _ => false

def sameMembers : List (Str × Value) → List (Str × Value) → Bool
  | [], _ => true
  | (key, x) :: xs, ys =>
    (match ys.lookup key with
      | some y => same x y
      | none => false) && sameMembers xs ys

end

mutual

/-- Equality in which truth values are the numbers 0 and 1. -/
def alike : Value → Value → Bool
  | .null, .null => true
  | .bool a, .bool b => a == b
  | .bool a, .int n => unit a == n
  | .int m, .bool b => m == unit b
  | .bool a, .real y => sameNumber (unit a) y
  | .real x, .bool b => sameNumber (unit b) x
  | .int m, .int n => m == n
  | .int m, .real y => sameNumber m y
  | .real x, .int n => sameNumber n x
  | .real x, .real y => x == y
  | .string s, .string t => s == t
  | .array xs, .array ys => alikeItems xs ys
  | .object xs, .object ys => xs.length == ys.length && alikeMembers xs ys
  | _, _ => false

def alikeItems : List Value → List Value → Bool
  | [], [] => true
  | x :: xs, y :: ys => alike x y && alikeItems xs ys
  | _, _ => false

/-- Every member is alike to one of the others. -/
def alikeMembers : List (Str × Value) → List (Str × Value) → Bool
  | [], _ => true
  | (key, x) :: xs, ys =>
    (match ys.lookup key with
      | some y => alike x y
      | none => false) && alikeMembers xs ys

end

/-- A number as a double; a whole number is taken exactly. -/
def number? : Value → Option Binary64
  | .bool b => some (.finite (unit b))
  | .int n => some (.finite n)
  | .real x => some x
  | _ => none

mutual

/-- Whether one value comes before another; nothing if they have no order. -/
def less? : Value → Value → Option Bool
  | .string s, .string t => some (s.before t)
  | .array xs, .array ys => lessItems? xs ys
  | .bool a, y => do return (Binary64.finite (unit a)).less (← y.number?)
  | .int n, y => do return (Binary64.finite n).less (← y.number?)
  | .real x, y => do return x.less (← y.number?)
  | _, _ => none

/-- Arrays are ordered by the first items that are not alike, else by length. -/
def lessItems? : List Value → List Value → Option Bool
  | _, [] => some false
  | [], _ :: _ => some true
  | x :: xs, y :: ys => if alike x y then lessItems? xs ys else less? x y

end

/-- As `less?`, but truth values have no order. -/
def before? : Value → Value → Option Bool
  | .bool _, _ => none
  | _, .bool _ => none
  | x, y => less? x y

/-- No two neighbours are the same. -/
def neighboursDiffer : List Value → Bool
  | x :: y :: rest => !same x y && neighboursDiffer (y :: rest)
  | _ => true

def allDiffer : List Value → Bool
  | [] => true
  | x :: xs => xs.all (fun y => !same x y) && allDiffer xs

/-- Whether an array repeats no item: where the items can be sorted, neighbours are compared, else
all pairs are. -/
def distinct (items : List Value) : Bool :=
  match Sorting.sort before? items with
  | some arranged => neighboursDiffer arranged
  | none => allDiffer items

end Value

end NotaryNetwork.Json
