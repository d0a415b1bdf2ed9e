import NotaryNetwork.Build.Error
import NotaryNetwork.Build.Journal
import NotaryNetwork.Key.Public
import NotaryNetwork.Scheme

/-!
# Provisioning of keys

Key pairs by scheme. A key on a curve takes 40 bytes of the source, whose number is brought between 1
and the order of the curve; the other two kinds take 32 bytes as they are. RSA keys do not take the
source: they come from the environment.
-/

namespace NotaryNetwork

/-- What makes key pairs: the source, and the RSA moduli of the environment by their size. -/
structure Provisioner (σ : Type) where
  draw : Random.Draw σ
  rsaModulus : Nat → Nat

namespace Provisioner

variable {σ : Type}

/-- Bytes beyond the size of the order, so that no scalar is much more likely than another. -/
def extraBytes : Nat := 8

/-- The bytes taken for a scalar. -/
def scalarBytes (curve : NamedCurve) : Nat :=
  (bitLength curve.curve.order + 7) / 8 + extraBytes

/-- The scalar of bytes: from 1 to one less than the order. -/
def scalar (curve : NamedCurve) (bytes : Bytes) : Nat :=
  Bytes.ofBigEndian bytes % (curve.curve.order - 1) + 1

/-- The bytes of a key that is taken as it is. -/
def rawBytes : Nat := 32

def rsaExponent : Nat := 65537

/-- The least size of RSA keys. -/
def leastRsaBits : Int := 1024

/-- Either a fault in generating a key, or one that passes through. -/
inductive Refusal
  | key (fault : KeyFault)
  | passing (fault : Random.Fault)

/-- A fault of value or type belongs to the generation, and so does an algorithm that is not
supported; others pass through. -/
def Refusal.ofFault (fault : Random.Fault) : Refusal :=
  match fault.kind with
  | .value | .type | .unsupported => .key (.source fault)
  | _ => .passing fault

/-- A key made of the answer to a request for bytes. -/
def drawKey (p : Provisioner σ) (length : Nat) (make : Bytes → Except KeyFault PrivateKey) :
    σ → Except Refusal PrivateKey × σ := fun s =>
  match p.draw length s with
  | (.ok bytes, s) => ((make bytes).mapError .key, s)
  | (.error fault, s) => (.error (.ofFault fault), s)

def ecKey (curve : NamedCurve) (bytes : Bytes) : Except KeyFault PrivateKey :=
  .ok (.ec curve (scalar curve bytes))

def rawKey (name : String) (make : RawKey → PrivateKey) (bytes : Bytes) :
    Except KeyFault PrivateKey :=
  if h : bytes.length = 32 then .ok (make ⟨bytes, h⟩) else .error (.rawLength name)

def rsaKey (p : Provisioner σ) : Option Int → Except KeyFault PrivateKey
  | none => .error .noKeySize
  | some size =>
    if size < leastRsaBits then .error .keyTooSmall
    else .ok (.rsa (p.rsaModulus size.toNat) rsaExponent)

/-- A private key by the algorithm of a scheme. Keys on a known curve and the two raw kinds make one
request to the source, everything else makes none. -/
def generateKey (p : Provisioner σ) (scheme : KeyScheme) (s : σ) : Except Refusal PrivateKey × σ :=
  if scheme.algorithm = KeyScheme.ecAlgorithm then
    match scheme.curve.bind NamedCurve.ofName? with
    | none => (.error (.key (.unsupportedCurve scheme.curve)), s)
    | some curve => p.drawKey (scalarBytes curve) (ecKey curve) s
  else if scheme.algorithm = KeyScheme.edwardsAlgorithm then
    p.drawKey rawBytes (rawKey "Ed25519" .ed25519) s
  else if scheme.algorithm = KeyScheme.agreementAlgorithm then
    p.drawKey rawBytes (rawKey "X25519" .x25519) s
  else if scheme.algorithm = KeyScheme.rsaAlgorithm then
    ((p.rsaKey scheme.keySize).mapError .key, s)
  else (.error (.key (.noGenerator scheme.algorithm)), s)

def Refusal.toFailure (scheme : KeyScheme) : Refusal → Failure
  | key fault => .build (.keyGeneration scheme.codeName fault)
  | passing fault => .source fault

/-- A key pair under the code name of its scheme. -/
def generatePair (p : Provisioner σ) (scheme : KeyScheme) (s : σ) : Except Failure KeyPair × σ :=
  match p.generateKey scheme s with
  | (.ok key, s) => (.ok ⟨scheme.codeName, key⟩, s)
  | (.error refusal, s) => (.error (refusal.toFailure scheme), s)

/-- Key pairs for identities in order, added to those before. A repeated identity draws again. -/
def generateInto (p : Provisioner σ) (scheme : KeyScheme) (made : Table Identity KeyPair) :
    List Identity → σ → Except Failure (Table Identity KeyPair) × σ
  | [], s => (.ok made, s)
  | i :: rest, s =>
    match p.generatePair scheme s with
    | (.ok pair, s) => p.generateInto scheme (made.insert i pair) rest s
    | (.error failure, s) => (.error failure, s)

/-- A key pair for each identity, in the order in which they come first; the count of the pairs is
noted in the journal. -/
def generatePairs (p : Provisioner σ) (scheme : KeyScheme) (identities : List Identity) :
    Job σ Failure (Table Identity KeyPair) := do
  let pairs ← .ofStep (p.generateInto scheme .empty identities)
  .ofTraced (.log (.keysGenerated pairs.size scheme.codeName))
  return pairs

end Provisioner

def SchemeRegistry.resolve (r : SchemeRegistry) (codeName : String) : Except BuildError KeyScheme :=
  match r.find? codeName with
  | some scheme => .ok scheme
  | none => .error (.unknownScheme codeName r.codeNames)

/-- The scheme of a code name, noted in the journal. -/
def SchemeRegistry.resolveTraced (r : SchemeRegistry) (codeName : String) :
    Traced BuildError KeyScheme := do
  let scheme ← .ofExcept (r.resolve codeName)
  .log (.schemeResolved scheme.codeName scheme.algorithm)
  return scheme

end NotaryNetwork
