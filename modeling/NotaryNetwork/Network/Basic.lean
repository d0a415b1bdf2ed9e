import NotaryNetwork.Build.Error
import NotaryNetwork.Key.Public
import NotaryNetwork.Record.Fields
import NotaryNetwork.Table

/-!
# Networks

What a test network consists of: the keys of its members, the keys of its notary workers, the worker
of every notary service, the group parameters and the name of the scheme of all keys. A group
parameter is an entry of the ordered key-value texts that the nodes of a network agree on.
-/

namespace NotaryNetwork

/-! ## Group parameters -/

/-- A key that is not empty, and its value. -/
structure GroupParameter where
  key : NonemptyText
  value : String
deriving DecidableEq

namespace GroupParameter

/-- The name of the record type in reports. -/
def title : String := "GroupParameterEntry"

/-- The entry of given fields. -/
def ofMembers (members : List (Json.Str × Json.Value)) : Checked GroupParameter :=
  Checked.start GroupParameter.mk
    |>.both (Record.required "key" Record.readNonempty (members.lookup (.text "key")))
    |>.both (Record.required "value" Record.readText (members.lookup (.text "value")))

def render (entry : GroupParameter) : String :=
  entry.key.val ++ "=" ++ entry.value

end GroupParameter

/-! ## The network -/

/-- A network that has been built. -/
structure Network where
  members : Table Identity KeyPair
  notaries : Table Identity KeyPair
  workers : Table Identity Identity
  groupParameters : List GroupParameter
  schemeName : String

namespace Network

/-- The notary services in the order of their declarations. -/
def services (n : Network) : List Identity := n.workers.keys

/-- The failure to find a service; it shows the identity, which needs a text. -/
def notAService (service : Identity) : Failure :=
  match service.render with
  | .ok text => .unknownService text
  | .error fault => .unrenderable fault

/-- What is said of an identity that is no service. -/
def unknownServiceMessage (text : String) : String :=
  text ++ " is not a notary service of this network"

def workerFor (n : Network) (service : Identity) : Except Failure Identity :=
  match n.workers.get? service with
  | some worker => .ok worker
  | none => .error (notAService service)

def notaryPublicKey (n : Network) (service : Identity) : Except Failure PublicKey := do
  let worker ← n.workerFor service
  match n.notaries.get? worker with
  | some pair => return pair.publicKey
  | none => throw (.missingKey worker)

/-- The group parameters by their keys. A repeated key has its last value. -/
def parameterTable (n : Network) : Table String String :=
  .ofList (n.groupParameters.map fun e => (e.key.val, e.value))

end Network

end NotaryNetwork
