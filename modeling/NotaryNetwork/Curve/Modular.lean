/-!
# Arithmetic modulo a prime

Powers, inverses and square roots of residues. Residues are numbers below the modulus.
-/

namespace NotaryNetwork.Curve

/-- The lowest `width` binary digits of a number, most significant first. -/
def bits : Nat → Nat → List Bool
  | 0, _ => []
  | width + 1, n => n.testBit width :: bits width n

def power (p a e : Nat) : Nat :=
  (bits (e.log2 + 1) e).foldl (fun r bit => if bit then r * r % p * a % p else r * r % p) (1 % p)

/-- The inverse of a residue modulo a prime; zero for zero. -/
def inverse (p a : Nat) : Nat :=
  power p a (p - 2)

def residue (p : Nat) (a : Int) : Nat :=
  (a % p).toNat

/-! ## Square roots -/

/-- How often two divides a number, counted up to a bound. -/
def twos : Nat → Nat → Nat
  | 0, _ => 0
  | bound + 1, n => if n % 2 = 0 then twos bound (n / 2) + 1 else 0

/-- A small number that is no square modulo an odd prime. -/
def nonSquare (p : Nat) : Nat :=
  ((List.range 100).find? fun z => power p z ((p - 1) / 2) = p - 1).getD 0

/-- A root `r` and the factor `t` by which its square is off, mended for the orders `2^i` down to one.
A root of unity `c` of order `2^(i + 2)` takes away what is left of order `2^(i + 1)`. -/
def mendRoot (p : Nat) : Nat → Nat → Nat → Nat → Nat
  | 0, _, _, r => r
  | i + 1, c, t, r =>
    let cc := c * c % p
    if power p t (Nat.pow 2 i) = 1 then mendRoot p i cc t r
    else mendRoot p i cc (t * cc % p) (r * c % p)

/-- A square root of a residue modulo an odd prime, if there is one. -/
def squareRoot? (p a : Nat) : Option Nat :=
  let s := twos (p.log2 + 1) (p - 1)
  let q := (p - 1) / Nat.pow 2 s
  let r := mendRoot p (s - 1) (power p (nonSquare p) q) (power p a q) (power p a ((q + 1) / 2))
  if r * r % p = a then some r else none

end NotaryNetwork.Curve
