import NotaryNetwork.Key.Algorithm

/-!
# Public keys in DER

A public key is written as its algorithm with parameters and the key itself as a bit string. Points
are written uncompressed; compressed points are read too.
-/

namespace NotaryNetwork.Key.Spki

open Der Algorithm

def wrap (algorithm : Oid) (parameters key : Bytes) : Bytes :=
  element sequenceTag (element sequenceTag (oidElement algorithm ++ parameters) ++ bitString key)

def rsaKey (modulus exponent : Nat) : Bytes :=
  element sequenceTag (integer modulus ++ integer exponent)

def encode : PublicKey → Bytes
  | .ec curve x y => wrap ecOid (oidElement curve.oid) (pointBytes curve x y)
  | .ed25519 key => wrap ed25519Oid [] key.val
  | .x25519 key => wrap x25519Oid [] key.val
  | .rsa modulus exponent => wrap rsaOid null (rsaKey modulus exponent)

/-! ## Reading -/

def ofPoint? (curve : NamedCurve) (x y : Nat) : Option PublicKey :=
  if curve.curve.contains x y then some (.ec curve x y) else none

/-- The key of a point: uncompressed, compressed with the parity of the ordinate in the mark, or both
at once. -/
def decodePoint? (curve : NamedCurve) (bytes : Bytes) : Option PublicKey :=
  match bytes with
  | [] => none
  | mark :: coordinates =>
    let width := curve.curve.width
    let x := Bytes.ofBigEndian (coordinates.take width)
    let y := Bytes.ofBigEndian (coordinates.drop width)
    if coordinates.length = 2 * width then
      if mark = 0x04 ∨ mark.toNat = 0x06 + y % 2 then ofPoint? curve x y else none
    else if coordinates.length = width then
      if mark = 0x02 ∨ mark = 0x03 then
        if x < curve.curve.p then
          (curve.curve.ordinate? x (mark.toNat % 2)).bind (ofPoint? curve x)
        else none
      else none
    else none

def rawKey? (bytes : Bytes) : Option RawKey :=
  if h : bytes.length = 32 then some ⟨bytes, h⟩ else none

/-- The numbers of an RSA key; the exponent is odd, at least 3 and below the modulus. -/
def decodeRsa? (bytes : Bytes) : Option PublicKey := do
  let content ← only? sequenceTag bytes
  let (modulus, rest) ← takeInteger? content
  let (exponent, rest) ← takeInteger? rest
  if rest = [] ∧ 3 ≤ exponent ∧ exponent % 2 = 1 ∧ exponent < modulus then
    some (.rsa modulus exponent)
  else none

def decodeKey (key : Bytes) : Algorithm → Except Fault PublicKey
  | .ec curve => found (decodePoint? curve key)
  | .ed25519 => found ((rawKey? key).map .ed25519)
  | .x25519 => found ((rawKey? key).map .x25519)
  | .rsa => found (decodeRsa? key)
  | .unread admits => .error (if admits key then .unsupported else .malformed)
where
  /-- A key that was found, or a malformed one. -/
  found (result : Option PublicKey) : Except Fault PublicKey :=
    match result with
    | some decoded => .ok decoded
    | none => .error .malformed

/-- The parts of a public key: the identifier of the algorithm, its parameters and the key. -/
def parts? (bytes : Bytes) : Option (Bytes × Bytes × Bytes) := do
  let content ← only? sequenceTag bytes
  let (identifier, rest) ← take? sequenceTag content
  let (algorithm, parameters) ← takeOid? identifier
  let key ← onlyBitString? rest
  return (algorithm, parameters, key)

def decode (bytes : Bytes) : Except Fault PublicKey :=
  match parts? bytes with
  | some (algorithm, parameters, key) => ofIdentifier algorithm parameters >>= decodeKey key
  | none => .error .malformed

end NotaryNetwork.Key.Spki
