import NotaryNetwork.Table

/-!
# Key schemes

A scheme names a family of algorithms with a curve or a key size. A registry holds schemes in the
order of registration; a code name is registered once and never changes its scheme.
-/

namespace NotaryNetwork

/-- A key scheme. The algorithm is a text: a registry may hold schemes that no generator knows. -/
structure KeyScheme where
  codeName : String
  algorithm : String
  curve : Option String
  keySize : Option Int
deriving DecidableEq

namespace KeyScheme

def ecAlgorithm : String := "EC"
def edwardsAlgorithm : String := "EdDSA"
def agreementAlgorithm : String := "X25519"
def rsaAlgorithm : String := "RSA"

def rsa : KeyScheme := ⟨"CORDA.RSA", rsaAlgorithm, none, some 3072⟩
def secp256k1 : KeyScheme := ⟨"CORDA.ECDSA.SECP256K1", ecAlgorithm, some "secp256k1", none⟩
/-- The scheme of the curve secp256r1, which is used where none is named. -/
def secp256r1 : KeyScheme := ⟨"CORDA.ECDSA.SECP256R1", ecAlgorithm, some "secp256r1", none⟩
/-- The scheme of signature keys of 32 bytes. -/
def ed25519 : KeyScheme := ⟨"CORDA.EDDSA.ED25519", edwardsAlgorithm, none, none⟩
/-- The scheme of agreement keys of 32 bytes. -/
def x25519 : KeyScheme := ⟨"CORDA.X25519", agreementAlgorithm, none, none⟩

end KeyScheme

/-- Schemes with distinct code names, in the order of registration. -/
structure SchemeRegistry where
  schemes : List KeyScheme
  nodup : (schemes.map (·.codeName)).Nodup
deriving DecidableEq

namespace SchemeRegistry

def empty : SchemeRegistry := ⟨[], by simp⟩

def codeNames (r : SchemeRegistry) : List String := r.schemes.map (·.codeName)

def find? (r : SchemeRegistry) (codeName : String) : Option KeyScheme :=
  r.schemes.find? (·.codeName = codeName)

def contains (r : SchemeRegistry) (codeName : String) : Bool :=
  r.codeNames.contains codeName

/-- The registry with one scheme more; nothing if its code name is registered. -/
def register? (r : SchemeRegistry) (scheme : KeyScheme) : Option SchemeRegistry :=
  if h : scheme.codeName ∈ r.codeNames then none
  else some ⟨r.schemes ++ [scheme], by
    rw [List.map_append]
    refine List.nodup_append.mpr ⟨r.nodup, by simp, ?_⟩
    intro x hx y hy same
    simp only [List.map_cons, List.map_nil, List.mem_singleton] at hy
    exact h (hy ▸ same ▸ hx)⟩

/-- The message of a code name that is registered already. -/
def alreadyRegistered (codeName : String) : String :=
  s!"Key scheme already registered: {codeName}"

/-- The registry of schemes that are registered in turn; the first code name that is repeated is the
error. -/
def ofList (schemes : List KeyScheme) : Except String SchemeRegistry :=
  schemes.foldlM
    (fun r scheme =>
      match r.register? scheme with
      | some r => .ok r
      | none => .error scheme.codeName)
    empty

def platform : SchemeRegistry :=
  ⟨[KeyScheme.rsa, KeyScheme.secp256k1, KeyScheme.secp256r1, KeyScheme.ed25519, KeyScheme.x25519],
    by decide⟩

end SchemeRegistry

end NotaryNetwork
