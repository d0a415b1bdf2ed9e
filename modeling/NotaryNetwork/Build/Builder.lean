import NotaryNetwork.Build.Parameters
import NotaryNetwork.Build.Provisioning
import NotaryNetwork.Build.Topology
import NotaryNetwork.Config.Basic
import NotaryNetwork.Key.Pem
import NotaryNetwork.Network.Basic

/-!
# Building networks

A network is planned first: identities are validated, the scheme and the workers are resolved. None
of this draws on the source. Then the keys of the members are made, those of the workers, and the
group parameters.
-/

namespace NotaryNetwork

/-- What networks are built with. Without a naming the standard one is used, and services must leave
room for it. -/
structure Builder (σ : Type) where
  registry : SchemeRegistry
  provisioner : Provisioner σ
  naming : Option WorkerNaming
  encodeKey : PublicKey → String

namespace Builder

variable {σ : Type}

/-- What is known of a network before keys are made. -/
structure Plan where
  scheme : KeyScheme
  workers : Table Identity Identity

/-- A step that fails by an error of the family. -/
def lift {α : Type} (x : Traced BuildError α) : Traced Failure α :=
  ⟨x.journal, x.outcome.mapError .build⟩

def validateServices (b : Builder σ) (services : List Identity) : Traced BuildError Unit :=
  match b.naming with
  | none => IdentityValidator.standard.validateServices services
  | some _ => IdentityValidator.standard.validateAll services

/-- The scheme and the workers of a network, after its members and services have been validated. The
first check that fails is reported. -/
def plan (b : Builder σ) (c : NetworkConfig) : Traced Failure Plan := do
  lift (IdentityValidator.standard.validateAll c.members)
  lift (b.validateServices c.services)
  let scheme ← lift (b.registry.resolveTraced c.schemeName.val)
  let workers ← Topology.resolve (b.naming.getD WorkerNaming.standard) c.members c.notaries
  return ⟨scheme, workers⟩

/-- The keys of workers; there are none without workers. -/
def provisionNotaries (b : Builder σ) (plan : Plan) :
    Job σ Failure (Table Identity KeyPair) :=
  match plan.workers.values with
  | [] => pure .empty
  | workers => b.provisioner.generatePairs plan.scheme workers

/-- The group parameters; there are none without workers. -/
def encodeParameters (b : Builder σ) (c : NetworkConfig) (plan : Plan)
    (keys : Table Identity KeyPair) : Traced Failure (List GroupParameter) :=
  match plan.workers.values with
  | [] => pure []
  | _ => Parameters.encode b.encodeKey c.notaries plan.workers keys

/-- The network of a configuration: it is planned, keys are drawn for the members and then for the
workers, and the group parameters are encoded at last. -/
def build (b : Builder σ) (c : NetworkConfig) : Job σ Failure Network := do
  let plan ← .ofTraced (b.plan c)
  let members ← b.provisioner.generatePairs plan.scheme c.members
  let notaries ← b.provisionNotaries plan
  let parameters ← .ofTraced (b.encodeParameters c plan notaries)
  let network : Network := ⟨members, notaries, plan.workers, parameters, plan.scheme.codeName⟩
  .ofTraced (.log (.networkBuilt members.size notaries.size parameters.length network.schemeName))
  return network

end Builder

end NotaryNetwork
