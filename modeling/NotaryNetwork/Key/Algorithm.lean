import NotaryNetwork.Key.Domain

/-!
# Algorithms of public keys

A public key starts with the identifier of its algorithm, followed by parameters. Every known
algorithm fixes the form of its parameters, and a key whose parameters have another form is malformed;
an unknown algorithm may have any one element. Keys are read of four algorithms, the others are
unsupported.
-/

namespace NotaryNetwork.Key

open Der

/-- Why bytes are no public key. -/
inductive Fault
  | malformed
  | unsupported
deriving DecidableEq

/-- The algorithm of a public key, with its parameters. -/
inductive Algorithm
  | ec (curve : NamedCurve)
  | ed25519
  | x25519
  | rsa
  /-- An algorithm whose keys are not read; `admits` tells which bytes could be a key of it. -/
  | unread (admits : Bytes → Bool)

namespace Algorithm

def ecOid : Oid := ⟨[1, 2, 840, 10045, 2, 1]⟩
def rsaOid : Oid := ⟨[1, 2, 840, 113549, 1, 1, 1]⟩
def rsaPssOid : Oid := ⟨[1, 2, 840, 113549, 1, 1, 10]⟩
def maskOid : Oid := ⟨[1, 2, 840, 113549, 1, 1, 8]⟩
def sha1Oid : Oid := ⟨[1, 3, 14, 3, 2, 26]⟩
def ed25519Oid : Oid := ⟨[1, 3, 101, 112]⟩
def x25519Oid : Oid := ⟨[1, 3, 101, 110]⟩
def ed448Oid : Oid := ⟨[1, 3, 101, 113]⟩
def x448Oid : Oid := ⟨[1, 3, 101, 111]⟩
def dsaOid : Oid := ⟨[1, 2, 840, 10040, 4, 1]⟩
def agreementOid : Oid := ⟨[1, 2, 840, 113549, 1, 3, 1]⟩

def null : Bytes := element nullTag []

/-! ## Algorithms without keys -/

/-- Hashes, authentication codes and signatures, which have no parameter or that for none. -/
def nullable : List Oid :=
  [sha1Oid] ++
  [1, 2, 3, 4, 7, 8, 9, 10].map (fun n => ⟨[2, 16, 840, 1, 101, 3, 4, 2, n]⟩) ++
  [1, 2, 3, 4, 13, 14, 15, 16].map (fun n => ⟨[2, 16, 840, 1, 101, 3, 4, 3, n]⟩) ++
  [1, 2, 3, 4].map (fun n => ⟨[1, 2, 840, 10045, 4, 3, n]⟩) ++
  [4, 5, 11, 12, 13, 14].map (fun n => ⟨[1, 2, 840, 113549, 1, 1, n]⟩) ++
  [7, 8, 9, 10, 11].map (fun n => ⟨[1, 2, 840, 113549, 2, n]⟩) ++
  [⟨[1, 3, 14, 3, 2, 29]⟩, ⟨[1, 2, 840, 10040, 4, 3]⟩]

/-- Signatures that have no parameter. -/
def bare : List Oid :=
  [9, 10, 11, 12].map fun n => ⟨[2, 16, 840, 1, 101, 3, 4, 3, n]⟩

/-- Ciphers, with the length of the octets that are their parameter. -/
def ciphers : List (Oid × Nat) := [
  (⟨[2, 16, 840, 1, 101, 3, 4, 1, 2]⟩, 16), (⟨[2, 16, 840, 1, 101, 3, 4, 1, 22]⟩, 16),
  (⟨[2, 16, 840, 1, 101, 3, 4, 1, 42]⟩, 16), (⟨[1, 2, 840, 113549, 3, 7]⟩, 8)]

/-- Nothing, or the parameter that stands for nothing. -/
def isNullable (parameters : Bytes) : Bool :=
  parameters = [] || parameters = null

/-- Whether the parameters of an algorithm without keys have the form that it fixes, or are one
element if it is not known. -/
def fits (body parameters : Bytes) : Bool :=
  if nullable.any (·.body = body) then isNullable parameters
  else if bare.any (·.body = body) then parameters = []
  else match ciphers.find? (·.1.body = body) with
    | some (_, length) => (only? octetStringTag parameters).any (·.length = length)
    | none => parameters = [] || (dropElement? parameters).any (· = [])

/-- The identifier of an algorithm without keys, with its parameters. -/
def isIdentifier (bytes : Bytes) : Bool :=
  match (only? sequenceTag bytes).bind takeOid? with
  | some (body, parameters) => fits body parameters
  | none => false

/-! ## Parameters of RSA with random padding -/

/-- The identifier that a left out hash stands for. -/
def defaultHash : Bytes :=
  element sequenceTag (oidElement sha1Oid ++ null)

/-- The identifier that a left out mask stands for. -/
def defaultMask : Bytes :=
  element sequenceTag (oidElement maskOid ++ defaultHash)

/-- The identifier of a mask, which is followed by that of a hash. -/
def isMask (bytes : Bytes) : Bool :=
  match (only? sequenceTag bytes).bind takeOid? with
  | some (_, rest) => isIdentifier rest
  | none => false

/-- The bytes after a numbered field that may be left out. What is in it must be admitted. -/
def dropField? (number : Nat) (admits : Bytes → Bool) (bytes : Bytes) : Option Bytes :=
  if bytes.head? = some (fieldTag number) then
    match take? (fieldTag number) bytes with
    | some (content, rest) => if admits content then some rest else none
    | none => none
  else some bytes

/-- A number below a bound that is all there is. -/
def isNumber (bound : Nat) (bytes : Bytes) : Bool :=
  (takeInteger? bytes).any fun (n, rest) => n < bound && rest = []

/-- Whether bytes are the parameters of RSA with random padding. A value that a left out field stands
for is not written. -/
def arePssParameters (parameters : Bytes) : Bool :=
  (do
    let content ← only? sequenceTag parameters
    let rest ← dropField? 0 (fun field => isIdentifier field && field != defaultHash) content
    let rest ← dropField? 1 (fun field => isMask field && field != defaultMask) rest
    let rest ← dropField? 2 (fun field => isNumber 65536 field && field != integer 20) rest
    let rest ← dropField? 3 (isNumber 256) rest
    return rest.isEmpty).getD false

/-! ## Parameters of keys -/

/-- The curves over binary fields, whose points are not read. -/
def binaryCurves : List Oid :=
  [1, 15, 16, 17, 26, 27, 36, 37, 38, 39].map fun n => ⟨[1, 3, 132, 0, n]⟩

/-- Numbers in a row, at least as many as the first and at most as many as the second argument say. -/
def areNumbers : Nat → Nat → Bytes → Bool
  | least, 0, bytes => least = 0 && bytes = []
  | least, most + 1, bytes =>
    (least = 0 && bytes = []) ||
      match takeInteger? bytes with
      | some (_, rest) => areNumbers (least - 1) most rest
      | none => false

/-- The curve of the parameters of a point: named, or recognised by its parameters. -/
def ofCurve (parameters : Bytes) : Except Fault Algorithm :=
  match takeOid? parameters with
  | some (body, []) =>
    match NamedCurve.all.find? (·.oid.body = body) with
    | some curve => .ok (.ec curve)
    | none =>
      if binaryCurves.any (·.body = body) then .ok (.unread fun _ => false)
      else .error .unsupported
  | _ =>
    if parameters = null then .error .unsupported
    else match Domain.curve? parameters with
      | some curve => .ok (.ec curve)
      | none => .error (if Domain.isWellFormed parameters then .unsupported else .malformed)

/-- An algorithm whose parameters have the form it fixes. -/
def demand (wellFormed : Bool) (algorithm : Algorithm) : Except Fault Algorithm :=
  if wellFormed then .ok algorithm else .error .malformed

def ofIdentifier (body parameters : Bytes) : Except Fault Algorithm :=
  if body = ecOid.body then ofCurve parameters
  else if body = rsaOid.body then demand (isNullable parameters) .rsa
  else if body = rsaPssOid.body then
    demand (parameters = [] || arePssParameters parameters) .rsa
  else if body = ed25519Oid.body then demand (parameters = []) .ed25519
  else if body = x25519Oid.body then demand (parameters = []) .x25519
  else if body = ed448Oid.body then demand (parameters = []) (.unread (·.length = 57))
  else if body = x448Oid.body then demand (parameters = []) (.unread (·.length = 56))
  else if body = dsaOid.body then
    demand ((only? sequenceTag parameters).any (areNumbers 3 3)) (.unread (areNumbers 1 1))
  else if body = agreementOid.body then
    demand ((only? sequenceTag parameters).any (areNumbers 2 3)) (.unread (areNumbers 1 1))
  else demand (fits body parameters) (.unread fun _ => true)

end Algorithm

end NotaryNetwork.Key
