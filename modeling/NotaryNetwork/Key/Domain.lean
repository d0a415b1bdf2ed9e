import NotaryNetwork.Key.Der
import NotaryNetwork.Key.Public

/-!
# Domain parameters

A curve may be given by its parameters in place of its name: the field, the coefficients with the seed
they were found from, the base point, the order and the cofactor. Three curves are recognised by their
exact parameters, with or without the seed.
-/

namespace NotaryNetwork.Key

open Der

def oidElement (oid : Oid) : Bytes := element oidTag oid.body

/-- The coordinates of a point after the mark of the uncompressed form. -/
def pointBytes (curve : NamedCurve) (x y : Nat) : Bytes :=
  0x04 :: Bytes.bigEndian curve.curve.width x ++ Bytes.bigEndian curve.curve.width y

namespace Domain

def primeField : Oid := ⟨[1, 2, 840, 10045, 1, 1]⟩

def binaryField : Oid := ⟨[1, 2, 840, 10045, 1, 2]⟩

/-- The curves that are recognised, with their seeds. -/
def recognised : List (NamedCurve × Nat) := [
  (.secp256r1, 0xC49D360886E704936A6678E1139D26B7819F7E90),
  (.secp384r1, 0xA335926AA319A27A1D00896A6773A4827ACDAC73),
  (.secp521r1, 0xD09E8800291CB85396CC6717393284AAA0DA64BA)]

/-- The parameters of a curve, given the element of its seed. -/
def encode (curve : NamedCurve) (seed : Bytes) : Bytes :=
  let C := curve.curve
  let octets (n : Nat) := element octetStringTag (Bytes.bigEndian C.width n)
  element sequenceTag <|
    integer 1 ++ element sequenceTag (oidElement primeField ++ integer C.p) ++
      element sequenceTag (octets C.a ++ octets C.b ++ seed) ++
      element octetStringTag (pointBytes curve C.baseX C.baseY) ++ integer C.order ++ integer 1

def curve? (parameters : Bytes) : Option NamedCurve :=
  (recognised.find? fun (curve, seed) =>
    parameters = encode curve [] ||
      parameters = encode curve (bitString (Bytes.bigEndian 20 seed))).map (·.1)

/-! ## Well-formed parameters -/

def isOneNumber (bytes : Bytes) : Bool :=
  match takeInteger? bytes with
  | some (_, []) => true
  | _ => false

def isField (content : Bytes) : Bool :=
  match takeOid? content with
  | none => false
  | some (body, rest) =>
    if body = primeField.body then isOneNumber rest
    else body = binaryField.body && (dropElement? rest).any (· = [])

/-- The coefficients of a curve and the seed, which may be left out. -/
def areCoefficients (content : Bytes) : Bool :=
  (do
    let (_, rest) ← take? octetStringTag content
    let (_, rest) ← take? octetStringTag rest
    return rest = [] || (onlyBitString? rest).isSome).getD false

/-- Whether bytes are the parameters of some curve. -/
def isWellFormed (parameters : Bytes) : Bool :=
  (do
    let content ← only? sequenceTag parameters
    let (version, rest) ← takeInteger? content
    let (field, rest) ← take? sequenceTag rest
    let (coefficients, rest) ← take? sequenceTag rest
    let (_, rest) ← take? octetStringTag rest
    let (_, rest) ← takeInteger? rest
    return version < 256 && isField field && areCoefficients coefficients &&
      (rest = [] || isOneNumber rest)).getD false

end Domain

end NotaryNetwork.Key
