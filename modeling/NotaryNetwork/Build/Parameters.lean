import NotaryNetwork.Build.Error
import NotaryNetwork.Build.Journal
import NotaryNetwork.Contract.Catalogue
import NotaryNetwork.Declaration
import NotaryNetwork.Key.Public
import NotaryNetwork.Network.Basic

/-!
# Encoding of group parameters

Every declared service gives a run of entries, numbered by its place: its name, the public key of its
worker, its protocol and the versions of the protocol, numbered in turn.
-/

namespace NotaryNetwork

/-- The key of an entry of a service. -/
inductive ParameterKey
  | name (service : Nat)
  | publicKey (service : Nat)
  | protocol (service : Nat)
  | version (service index : Nat)
deriving DecidableEq

namespace ParameterKey

/-- The part of a key that names the service. -/
def head (service : Nat) : String := "service." ++ toString service

def render : ParameterKey → String
  | name service => head service ++ ".name"
  | publicKey service => head service ++ ".keys.0"
  | protocol service => head service ++ ".flow.protocol.name"
  | version service index => head service ++ ".flow.protocol.version." ++ toString index

theorem render_ne_empty (key : ParameterKey) : 1 ≤ key.render.length := by
  have marked : 8 ≤ "service.".length := by decide
  cases key <;> simp only [render, head, String.length_append] <;> omega

def entry (key : ParameterKey) (value : String) : GroupParameter :=
  ⟨⟨key.render, key.render_ne_empty⟩, value⟩

end ParameterKey

namespace Parameters

/-- The protocol of notaries that do not validate. -/
def protocolName : String := "com.r3.corda.notary.plugin.nonvalidating"

/-- The entries of versions, given their texts. -/
def versionEntries (service : Nat) : Nat → List String → List GroupParameter
  | _, [] => []
  | index, v :: vs =>
    (ParameterKey.version service index).entry v :: versionEntries service (index + 1) vs

/-- The entries of a service with a text, the text of a key, and those of its versions. -/
def serviceEntries (service : Nat) (text key : String) (versions : List String) :
    List GroupParameter :=
  (ParameterKey.name service).entry text :: (ParameterKey.publicKey service).entry key ::
    (ParameterKey.protocol service).entry protocolName :: versionEntries service 0 versions

/-- The text of a version. -/
def versionText (version : Nat) : Except Failure String :=
  match Text.written? version with
  | some text => .ok text
  | none => .error .tooManyDigits

def workerPair (workers : Table Identity Identity) (keys : Table Identity KeyPair)
    (service : Identity) : Except Failure KeyPair :=
  match workers.get? service with
  | none => .error (.missingKey service)
  | some worker =>
    match keys.get? worker with
    | none => .error (.missingKey worker)
    | some pair => .ok pair

/-- The entries of declarations from a number on. -/
def entriesFrom (encodeKey : PublicKey → String) (workers : Table Identity Identity)
    (keys : Table Identity KeyPair) :
    Nat → List NotaryDeclaration → Except Failure (List GroupParameter)
  | _, [] => .ok []
  | index, d :: rest => do
    let pair ← workerPair workers keys d.service
    let text ← d.service.render.mapError .unrenderable
    let versions ← d.versions.val.mapM versionText
    let entries := serviceEntries index text (encodeKey pair.publicKey) versions
    return entries ++ (← entriesFrom encodeKey workers keys (index + 1) rest)

/-- Entries as the document that their contract describes. -/
def toDocument (entries : List GroupParameter) : Json.Value :=
  .array (entries.map fun e => .object [("key", .text e.key.val), ("value", .text e.value)])

/-- The entries of declarations, which follow the contract of group parameters. -/
def encode (encodeKey : PublicKey → String) (declarations : List NotaryDeclaration)
    (workers : Table Identity Identity) (keys : Table Identity KeyPair) :
    Traced Failure (List GroupParameter) := do
  let entries ← .ofExcept (entriesFrom encodeKey workers keys 0 declarations)
  .ofExcept ((Contract.groupParameters.validate (toDocument entries)).mapError .contract)
  .log (.parametersEncoded entries.length declarations.length)
  return entries

end Parameters

end NotaryNetwork
