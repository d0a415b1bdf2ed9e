import NotaryNetwork.Bytes
import NotaryNetwork.Curve.Modular

/-!
# The curve of 2^255 - 19

The field modulo 2^255 - 19, the Edwards form `y² - x² = 1 + d x² y²` for signature keys, and the
Montgomery form `v² = u³ + 486662 u² + u` for agreement keys. A private key of either kind is 32
bytes, of which some bits are fixed before they are taken for a scalar.
-/

namespace NotaryNetwork.Curve.Edwards25519

def p : Nat := Nat.pow 2 255 - 19

/-- The scalar of 32 bytes: a multiple of eight with bit 254 set and none above. -/
def scalar (bytes : Bytes) : Nat :=
  let n := Bytes.ofLittleEndian bytes % Nat.pow 2 254
  Nat.pow 2 254 + n / 8 * 8

/-! ## Signature keys -/

def d : Nat := residue p (-121665 * inverse p 121666)

/-- A point `(x / z, y / z)`. -/
structure Point where
  x : Nat
  y : Nat
  z : Nat

def Point.add (P Q : Point) : Point :=
  let a := P.z * Q.z % p
  let b := a * a % p
  let c := P.x * Q.x % p
  let e := P.y * Q.y % p
  let f : Int := d * c % p * e % p
  let minus := (b : Int) - f
  let plus := (b : Int) + f
  let cross : Int := (P.x + P.y) * (Q.x + Q.y) - c - e
  ⟨residue p (a * minus * cross), residue p (a * plus * (e + c)), residue p (minus * plus)⟩

/-- The abscissa with the given parity of an ordinate on the curve. -/
def abscissa (y parity : Nat) : Nat :=
  let u := residue p (y * y - 1)
  let v := (d * y * y + 1) % p
  let square := u * inverse p v % p
  let r := power p square ((p + 3) / 8)
  let x := if r * r % p = square then r else r * power p 2 ((p - 1) / 4) % p
  if x % 2 = parity then x else p - x

/-- The base point: the ordinate is four fifths, the abscissa even. -/
def base : Point :=
  let y := 4 * inverse p 5 % p
  ⟨abscissa y 0, y, 1⟩

def multiple (k : Nat) : Point :=
  let start := base
  (bits (k.log2 + 1) k).foldl
    (fun sum bit =>
      let twice := sum.add sum
      if bit then twice.add start else twice)
    ⟨0, 1, 1⟩

/-- The ordinate of a point in 32 bytes, the parity of the abscissa in the last bit. -/
def Point.compressed (P : Point) : Bytes :=
  let i := inverse p P.z
  let x := P.x * i % p
  let y := P.y * i % p
  Bytes.littleEndian 32 (y + x % 2 * Nat.pow 2 255)

@[simp]
theorem Point.length_compressed (P : Point) : P.compressed.length = 32 := by
  simp [compressed, Bytes.littleEndian]

/-! ## Agreement keys -/

/-- A step of the ladder: the doubles and the sum of two points whose difference has the abscissa
`u`. Points are given by fractions `x / z`. -/
structure Rung where
  x2 : Nat
  z2 : Nat
  x3 : Nat
  z3 : Nat

def Rung.swap (r : Rung) : Rung := ⟨r.x3, r.z3, r.x2, r.z2⟩

/-- The double of the first point, and the sum of both. -/
def Rung.advance (u : Nat) (r : Rung) : Rung :=
  let a := (r.x2 + r.z2 : Int)
  let b := (r.x2 - r.z2 : Int)
  let aa := a * a % p
  let bb := b * b % p
  let e := aa - bb
  let da := (r.x3 - r.z3 : Int) * a % p
  let cb := (r.x3 + r.z3 : Int) * b % p
  ⟨residue p (aa * bb), residue p (e * (aa + 121665 * e)), residue p ((da + cb) * (da + cb)),
    residue p (u * ((da - cb) * (da - cb) % p))⟩

/-- The abscissa of a multiple of a point with a given abscissa. -/
def ladder (k u : Nat) : Nat :=
  let r := (bits 255 k).foldl
    (fun r bit => if bit then (r.swap.advance u).swap else r.advance u)
    (⟨1, 0, u, 1⟩ : Rung)
  r.x2 * inverse p r.z2 % p

/-- The public bytes of an agreement key: a multiple of the point with abscissa 9. -/
def agreementKey (privateBytes : Bytes) : Bytes :=
  Bytes.littleEndian 32 (ladder (scalar privateBytes) 9)

@[simp]
theorem length_agreementKey (privateBytes : Bytes) : (agreementKey privateBytes).length = 32 := by
  simp [agreementKey, Bytes.littleEndian]

end NotaryNetwork.Curve.Edwards25519
