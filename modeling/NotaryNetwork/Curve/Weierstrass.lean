import NotaryNetwork.Bytes
import NotaryNetwork.Curve.Modular

/-!
# Weierstrass curves

Curves `y² = x³ + a x + b` over a prime field, whose points with the point at infinity make a group of
prime order. Sums are formed in projective coordinates by formulas that need no case distinction on
such a group.
-/

namespace NotaryNetwork.Curve

/-- The parameters of a curve. -/
structure Weierstrass where
  /-- The prime of the field. -/
  p : Nat
  a : Nat
  b : Nat
  /-- The coordinates of the base point. -/
  baseX : Nat
  baseY : Nat
  /-- The order of the group. -/
  order : Nat

/-- A point with projective coordinates: `(x / z, y / z)`, or at infinity if `z` is zero. -/
structure Projective where
  x : Nat
  y : Nat
  z : Nat

namespace Weierstrass

/-- The number of bytes of a coordinate. -/
def width (C : Weierstrass) : Nat :=
  (bitLength C.p + 7) / 8

/-- Whether coordinates are residues that satisfy the equation of the curve. -/
def contains (C : Weierstrass) (x y : Nat) : Bool :=
  x < C.p && y < C.p && y * y % C.p == (x * x * x + C.a * x + C.b) % C.p

def add (C : Weierstrass) (P Q : Projective) : Projective :=
  let a : Int := C.a
  let b3 : Int := 3 * C.b
  let x1 : Int := P.x
  let y1 : Int := P.y
  let z1 : Int := P.z
  let x2 : Int := Q.x
  let y2 : Int := Q.y
  let z2 : Int := Q.z
  let xx := x1 * x2
  let yy := y1 * y2
  let zz := z1 * z2
  let xy := x1 * y2 + x2 * y1
  let xz := x1 * z2 + x2 * z1
  let yz := y1 * z2 + y2 * z1
  let lower := yy - a * xz - b3 * zz
  let upper := yy + a * xz + b3 * zz
  let slope := 3 * xx + a * zz
  let rest := (a * xx + b3 * xz - a * a * zz) % C.p
  ⟨residue C.p (xy * lower - yz * rest), residue C.p (slope * rest + upper * lower),
    residue C.p (yz * upper + xy * slope)⟩

def multiple (C : Weierstrass) (k : Nat) (P : Projective) : Projective :=
  (bits (k.log2 + 1) k).foldl
    (fun sum bit =>
      let twice := C.add sum sum
      if bit then C.add twice P else twice)
    ⟨0, 1, 0⟩

/-- The coordinates of a point that is not at infinity. -/
def affine (C : Weierstrass) (P : Projective) : Nat × Nat :=
  let i := inverse C.p P.z
  (P.x * i % C.p, P.y * i % C.p)

/-- The coordinates of a multiple of the base point. -/
def publicPoint (C : Weierstrass) (scalar : Nat) : Nat × Nat :=
  C.affine (C.multiple scalar ⟨C.baseX, C.baseY, 1⟩)

/-- The ordinate of an abscissa, with the given parity, if there is a point. -/
def ordinate? (C : Weierstrass) (x parity : Nat) : Option Nat := do
  let y ← squareRoot? C.p ((x * x * x + C.a * x + C.b) % C.p)
  return if y % 2 = parity then y else C.p - y

end Weierstrass

end NotaryNetwork.Curve
