import NotaryNetwork.Bytes

/-!
# DER elements

An element is a tag, the length of its content and the content. Lengths are written in the shortest
form, and only that form is read; so `take?` gives back what `element` wrote.
-/

namespace NotaryNetwork.Key.Der

/-- The fewest bytes of a number, at least one. -/
def numberBytes (n : Nat) : Bytes :=
  Bytes.bigEndian (n.log2 / 8 + 1) n

/-- The bytes of a length: one below 128, else their count and the bytes. -/
def lengthBytes (n : Nat) : Bytes :=
  if n < 128 then [UInt8.ofNat n]
  else
    let bytes := numberBytes n
    UInt8.ofNat (128 + bytes.length) :: bytes

def element (tag : UInt8) (content : Bytes) : Bytes :=
  tag :: lengthBytes content.length ++ content

/-- A length in the shortest form at the start of the bytes, and the bytes after it. -/
def takeLength? : Bytes → Option (Nat × Bytes)
  | [] => none
  | b :: rest =>
    if b.toNat < 128 then some (b.toNat, rest)
    else
      let count := b.toNat - 128
      let bytes := rest.take count
      let n := Bytes.ofBigEndian bytes
      if count ≤ 4 ∧ bytes.length = count ∧ lengthBytes n = b :: bytes then
        some (n, rest.drop count)
      else none

/-- The content of an element with a tag at the start of the bytes, and the bytes after it. -/
def take? (tag : UInt8) : Bytes → Option (Bytes × Bytes)
  | [] => none
  | t :: rest =>
    if t = tag then
      match takeLength? rest with
      | some (n, rest) => if n ≤ rest.length then some (rest.take n, rest.drop n) else none
      | none => none
    else none

/-- The content of bytes that are one element with a tag. -/
def only? (tag : UInt8) (bytes : Bytes) : Option Bytes :=
  match take? tag bytes with
  | some (content, []) => some content
  | _ => none

/-- A tag of several bytes after its first: a number to base 128 of at most four digits, in the
shortest form and too large for a single byte. -/
def dropLongTag? (bytes : Bytes) : Option Bytes :=
  let digits := bytes.takeWhile (128 ≤ ·.toNat)
  match bytes.drop digits.length with
  | [] => none
  | last :: rest =>
    match digits with
    | [] => if 0x1F ≤ last.toNat then some rest else none
    | first :: _ => if first ≠ 0x80 ∧ digits.length < 4 then some rest else none

/-- The bytes after an element with any tag at the start. -/
def dropElement? : Bytes → Option Bytes
  | [] => none
  | t :: rest => do
    let rest ← if t.toNat % 32 = 0x1F then dropLongTag? rest else some rest
    let (n, rest) ← takeLength? rest
    if n ≤ rest.length then some (rest.drop n) else none

/-! ## Tags -/

def integerTag : UInt8 := 0x02
def bitStringTag : UInt8 := 0x03
def octetStringTag : UInt8 := 0x04
def nullTag : UInt8 := 0x05
def oidTag : UInt8 := 0x06
def sequenceTag : UInt8 := 0x30

/-- The tag of a numbered field around an element. -/
def fieldTag (number : Nat) : UInt8 := UInt8.ofNat (0xA0 + number)

/-! ## Numbers -/

/-- A number that is not negative. -/
def integer (n : Nat) : Bytes :=
  let bytes := numberBytes n
  element integerTag (if bytes.head?.any (128 ≤ ·.toNat) then 0 :: bytes else bytes)

/-- A number that is not negative in the shortest form, and the bytes after it. -/
def takeInteger? (bytes : Bytes) : Option (Nat × Bytes) := do
  let (content, rest) ← take? integerTag bytes
  let n := Bytes.ofBigEndian content
  if integer n = element integerTag content then some (n, rest) else none

/-! ## Bit strings -/

/-- Whole bytes as a bit string. -/
def bitString (bytes : Bytes) : Bytes :=
  element bitStringTag (0 :: bytes)

/-- The bytes of a bit string that is all there is. -/
def onlyBitString? (bytes : Bytes) : Option Bytes := do
  match ← only? bitStringTag bytes with
  | 0 :: content => some content
  | _ => none

/-! ## Object identifiers -/

/-- Whether bytes are numbers to base 128 in the shortest form, each below `2^128`, given the number
that has been begun. -/
def areArcs : Option Nat → Bytes → Bool
  | begun, [] => begun.isNone
  | begun, b :: bytes =>
    let n := 128 * begun.getD 0 + b.toNat % 128
    n < Nat.pow 2 128 && !(begun.isNone && b == 0x80) &&
      areArcs (if 128 ≤ b.toNat then some n else none) bytes

/-- Whether bytes are the body of an object identifier. -/
def isOidBody (body : Bytes) : Bool :=
  body != [] && body.length ≤ 63 && areArcs none body

/-- The body of an object identifier at the start of the bytes, and the bytes after it. -/
def takeOid? (bytes : Bytes) : Option (Bytes × Bytes) := do
  let (body, rest) ← take? oidTag bytes
  if isOidBody body then some (body, rest) else none

end NotaryNetwork.Key.Der
