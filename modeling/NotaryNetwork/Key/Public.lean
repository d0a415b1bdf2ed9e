import NotaryNetwork.Curve.Edwards25519
import NotaryNetwork.Curve.Standard
import NotaryNetwork.Digest
import NotaryNetwork.Oid

/-!
# Keys

Private and public keys of four kinds, the public key of a private one, and the pair that belongs to
a participant. A key pair knows the scheme that it was made by.
-/

namespace NotaryNetwork

/-- The curves that keys may be on. -/
inductive NamedCurve
  | secp192r1
  | secp224r1
  | secp256r1
  | secp384r1
  | secp521r1
  | secp256k1
  | brainpoolP256r1
  | brainpoolP384r1
  | brainpoolP512r1
deriving DecidableEq

namespace NamedCurve

def name : NamedCurve → String
  | secp192r1 => "secp192r1"
  | secp224r1 => "secp224r1"
  | secp256r1 => "secp256r1"
  | secp384r1 => "secp384r1"
  | secp521r1 => "secp521r1"
  | secp256k1 => "secp256k1"
  | brainpoolP256r1 => "brainpoolP256r1"
  | brainpoolP384r1 => "brainpoolP384r1"
  | brainpoolP512r1 => "brainpoolP512r1"

def curve : NamedCurve → Curve.Weierstrass
  | secp192r1 => .secp192r1
  | secp224r1 => .secp224r1
  | secp256r1 => .secp256r1
  | secp384r1 => .secp384r1
  | secp521r1 => .secp521r1
  | secp256k1 => .secp256k1
  | brainpoolP256r1 => .brainpoolP256r1
  | brainpoolP384r1 => .brainpoolP384r1
  | brainpoolP512r1 => .brainpoolP512r1

def oid : NamedCurve → Oid
  | secp192r1 => ⟨[1, 2, 840, 10045, 3, 1, 1]⟩
  | secp224r1 => ⟨[1, 3, 132, 0, 33]⟩
  | secp256r1 => ⟨[1, 2, 840, 10045, 3, 1, 7]⟩
  | secp384r1 => ⟨[1, 3, 132, 0, 34]⟩
  | secp521r1 => ⟨[1, 3, 132, 0, 35]⟩
  | secp256k1 => ⟨[1, 3, 132, 0, 10]⟩
  | brainpoolP256r1 => ⟨[1, 3, 36, 3, 3, 2, 8, 1, 1, 7]⟩
  | brainpoolP384r1 => ⟨[1, 3, 36, 3, 3, 2, 8, 1, 1, 11]⟩
  | brainpoolP512r1 => ⟨[1, 3, 36, 3, 3, 2, 8, 1, 1, 13]⟩

/-- The curves that keys are read on. -/
def all : List NamedCurve :=
  [secp192r1, secp224r1, secp256r1, secp384r1, secp521r1, secp256k1, brainpoolP256r1,
    brainpoolP384r1, brainpoolP512r1]

/-- The curves that keys are made on. -/
def provisioned : List NamedCurve := [secp256r1, secp256k1]

def ofName? (name : String) : Option NamedCurve :=
  provisioned.find? (·.name = name)

end NamedCurve

/-- A key of 32 bytes. -/
abbrev RawKey := { bytes : Bytes // bytes.length = 32 }

/-- A public key. -/
inductive PublicKey
  | ec (curve : NamedCurve) (x y : Nat)
  | ed25519 (key : RawKey)
  | x25519 (key : RawKey)
  | rsa (modulus exponent : Nat)
deriving DecidableEq

/-- The kind of a key, with the curve or the size. -/
def PublicKey.kind : PublicKey → String
  | ec curve _ _ => "EC:" ++ curve.name
  | ed25519 _ => "Ed25519"
  | x25519 _ => "X25519"
  | rsa modulus _ => s!"RSA:{bitLength modulus}"

/-- A private key. Of an RSA key only the public part is kept. -/
inductive PrivateKey
  | ec (curve : NamedCurve) (scalar : Nat)
  | ed25519 (key : RawKey)
  | x25519 (key : RawKey)
  | rsa (modulus exponent : Nat)
deriving DecidableEq

def PrivateKey.publicKey : PrivateKey → PublicKey
  | ec curve scalar =>
    let (x, y) := curve.curve.publicPoint scalar
    .ec curve x y
  | ed25519 key =>
    let scalar := Curve.Edwards25519.scalar ((Digest.sha512 key.val).take 32)
    .ed25519 ⟨(Curve.Edwards25519.multiple scalar).compressed, by simp⟩
  | x25519 key => .x25519 ⟨Curve.Edwards25519.agreementKey key.val, by simp⟩
  | rsa modulus exponent => .rsa modulus exponent

/-- The keys of a participant and the name of the scheme they were made by. -/
structure KeyPair where
  schemeName : String
  privateKey : PrivateKey
deriving DecidableEq

namespace KeyPair

def publicKey (pair : KeyPair) : PublicKey := pair.privateKey.publicKey

end KeyPair

end NotaryNetwork
