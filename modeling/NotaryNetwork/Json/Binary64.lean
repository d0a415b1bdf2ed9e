/-!
# Double precision numbers

The values of IEEE 754 binary64 as a document can give them: a number that is no infinity is an
exact fraction. `ofDecimal` rounds `m · 10 ^ e` to the nearest double, a tie to the even one, and
overflows to infinity. The two zeros are one value here: no rule of the library tells them apart.
-/

namespace NotaryNetwork.Json

/-- A double: a fraction, an infinity, or not a number. -/
inductive Binary64
  | finite (value : Rat)
  | infinite (negative : Bool)
  | nan
deriving DecidableEq

namespace Binary64

/-- The quotient rounded to the nearest whole number, a tie to the even one. -/
def roundDiv (num den : Nat) : Nat :=
  let q := num / den
  let twice := 2 * (num % den)
  if twice < den then q
  else if den < twice then q + 1
  else if q % 2 = 0 then q else q + 1

/-- The exponent of the last of 53 binary digits of a positive fraction, not below the exponent of
the least double. -/
def lastPlace (num den : Nat) : Int :=
  let guess : Int := (num.log2 : Int) - den.log2 - 52
  let fits : Bool :=
    if 0 ≤ guess then den * Nat.pow 2 (guess.toNat + 52) ≤ num
    else den * Nat.pow 2 52 ≤ num * Nat.pow 2 (-guess).toNat
  max (-1074) (if fits then guess else guess - 1)

/-- The double nearest to a positive fraction. -/
def nearest (num den : Nat) : Binary64 :=
  let place := lastPlace num den
  if 0 ≤ place then
    let value := roundDiv num (den * Nat.pow 2 place.toNat) * Nat.pow 2 place.toNat
    if Nat.pow 2 1024 ≤ value then infinite false else finite (value : Nat)
  else
    let scale := Nat.pow 2 (-place).toNat
    finite (mkRat (roundDiv (num * scale) den) scale)

def neg : Binary64 → Binary64
  | finite q => finite (-q)
  | infinite negative => infinite (!negative)
  | nan => nan

/-- The double nearest to `digits · 10 ^ exponent`, where `width` is the count of the digits. Far out
of range the answer is known from the width and the exponent alone. -/
def ofDecimal (digits width : Nat) (exponent : Int) : Binary64 :=
  if digits = 0 then finite 0
  else if 400 < exponent + digits.log2 / 4 then infinite false
  else if exponent + width < -400 then finite 0
  else if 0 ≤ exponent then nearest (digits * Nat.pow 10 exponent.toNat) 1
  else nearest digits (Nat.pow 10 (-exponent).toNat)

/-- The whole number that a double is, if it is one. -/
def toInt? : Binary64 → Option Int
  | finite q => if q.den = 1 then some q.num else none
  | _ => none

/-- The order of doubles, in which nothing is below or above what is not a number. -/
def less : Binary64 → Binary64 → Bool
  | finite p, finite q => p < q
  | finite _, infinite negative => !negative
  | infinite negative, finite _ => negative
  | infinite true, infinite false => true
  | _, _ => false

end Binary64

end NotaryNetwork.Json
