import NotaryNetwork.Contract.Validator
import NotaryNetwork.Identity.Parser
import NotaryNetwork.Random.Source

/-!
# Errors of building

`BuildError` is the family of errors that say why a network cannot be built. `Failure` adds what else
can go wrong on the way: an identity that has no text, a naming that fails on its own account, a key
that is missing, an encoding that breaks its contract, a source that fails.
-/

namespace NotaryNetwork

/-! ## Key generation -/

/-- Why a key pair cannot be generated. -/
inductive KeyFault
  | noGenerator (algorithm : String)
  | unsupportedCurve (curve : Option String)
  /-- The source gave no 32 bytes for a key of an algorithm. -/
  | rawLength (algorithm : String)
  | noKeySize
  /-- An RSA scheme with a key size below 1024 bits. -/
  | keyTooSmall
  /-- The source raised a fault of value or type, or an unsupported algorithm. -/
  | source (fault : Random.Fault)
  | stated (detail : String)
deriving DecidableEq

namespace KeyFault

def message : KeyFault → String
  | noGenerator algorithm => s!"no key pair generator for algorithm {Text.quoted algorithm}"
  | unsupportedCurve none => "unsupported curve None"
  | unsupportedCurve (some curve) => s!"unsupported curve {Text.quoted curve}"
  | rawLength algorithm => s!"An {algorithm} private key is 32 bytes long"
  | noKeySize => "RSA scheme requires key_size"
  | keyTooSmall => "key_size must be at least 1024-bits."
  | source fault => fault.message
  | stated detail => detail

/-- The kind of fault that a generator raised; none if there was no generator. -/
def raised? : KeyFault → Option Random.FaultKind
  | noGenerator _ | stated _ => none
  | source fault => some fault.kind
  | unsupportedCurve _ | rawLength _ | noKeySize | keyTooSmall => some .value

end KeyFault

/-! ## The family -/

/-- A name in an overlap: an identity, or a text. -/
inductive OverlapName
  | identity (i : Identity)
  | text (s : String)
deriving DecidableEq

/-- Why a common name is invalid. -/
inductive NameFault
  | containsMarker
  /-- It leaves no room for the marker after it. -/
  | tooLong (most : Int)
  /-- No worker name can be made of the service with this text. -/
  | underivable (service : String) (cause : RecordError)
  | stated (message : String)
deriving DecidableEq

/-- Why a network cannot be built. -/
inductive BuildError
  | invalidIdentity (commonName marker : String) (fault : NameFault)
  | unknownScheme (name : String) (known : List String)
  | overlap (names : List OverlapName) (message : String)
  | keyGeneration (scheme : String) (fault : KeyFault)
  | other (message : String)
deriving DecidableEq

namespace BuildError

/-- The message of an error. Where a record was refused it ends before the issues. -/
def message : BuildError → String
  | invalidIdentity commonName marker .containsMarker =>
    s!"Common name '{commonName}' should not contain {marker}"
  | invalidIdentity commonName marker (.tooLong most) =>
    s!"Common name '{commonName}' is too long to derive a {marker} name (max {most} characters)"
  | invalidIdentity _ marker (.underivable service _) =>
    s!"Cannot derive a {marker} name from {service}: "
  | invalidIdentity _ _ (.stated message) => message
  | unknownScheme name known =>
    let names := ", ".intercalate known
    let hint := if known = [] then "" else s!" (known: {names})"
    s!"Unknown key scheme: {Text.quoted name}{hint}"
  | overlap _ message => message
  | keyGeneration scheme fault =>
    s!"Key generation failed for scheme {Text.quoted scheme}: {fault.message}"
  | other message => message

def overlapText : OverlapName → Except Name.SizeFault String
  | .identity i => i.render
  | .text s => .ok s

/-- The error of names that are members and notaries at once. Its message shows them, so each of
them needs a text. -/
def ofOverlap (names : List OverlapName) : Except Name.SizeFault BuildError := do
  let texts ← names.mapM overlapText
  let shown := ", ".intercalate texts
  return overlap names s!"Member(s) [{shown}] cannot also be a Notary"

end BuildError

/-- What can go wrong when a network is built. -/
inductive Failure
  | build (error : BuildError)
  /-- A text was needed of an identity that has none. -/
  | unrenderable (fault : Name.SizeFault)
  /-- A naming failed to read the text of a name. -/
  | naming (error : Identity.ParseError)
  | missingKey (identity : Identity)
  /-- An identity with this text is no service of the network. -/
  | unknownService (text : String)
  /-- A version has more digits than are written. -/
  | tooManyDigits
  /-- Group parameters break their contract. -/
  | contract (violation : Contract.Violation)
  /-- The source failed, and not in a way that belongs to the generation of keys. -/
  | source (fault : Random.Fault)
deriving DecidableEq

end NotaryNetwork
