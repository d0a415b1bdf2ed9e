import NotaryNetwork.Build.Builder
import NotaryNetwork.Network.Embedded
import NotaryNetwork.Random.Choice

/-!
# Fixtures

A fixture builds a network of one configuration each time it is instantiated. With a seed every
instance starts the stream anew; with a builder all instances draw on its source, one after the
other; else every instance has a builder of its own on the system's bytes.
-/

namespace NotaryNetwork

/-- A builder and the state of its source. -/
structure SourcedBuilder where
  builder : Builder Random.Choice
  source : Random.Choice

/-- What the system provides: random bytes, and RSA moduli by their size. -/
structure Environment where
  entropy : Nat → UInt8
  rsaModulus : Nat → Nat

namespace Environment

/-- The builder that is used where none is given. -/
def builder (env : Environment) : Builder Random.Choice :=
  ⟨.platform, ⟨Random.Choice.draw, env.rsaModulus⟩, none, Key.Pem.encode⟩

def system (env : Environment) : Random.Choice := .system env.entropy 0

end Environment

/-- What a fixture builds with. -/
inductive FixtureSupply
  | shared (builder : SourcedBuilder)
  | seeded (seed : Random.Seed)
  | unseeded

/-- A fixture: its configuration, its scope and what it builds with. -/
structure Fixture where
  config : NetworkConfig
  scope : NetworkScope
  supply : FixtureSupply

namespace Fixture

/-- What is said of a fixture that is given a builder and a seed. -/
def conflictMessage : String := "network_fixture accepts either builder or seed, not both"

/-- A fixture with a builder or a seed, or neither; nothing if both are given. -/
def make? (config : NetworkConfig) (scope : NetworkScope) (builder : Option SourcedBuilder)
    (seed : Option Random.Seed) : Option Fixture :=
  match builder, seed with
  | some _, some _ => none
  | some builder, none => some ⟨config, scope, .shared builder⟩
  | none, some seed => some ⟨config, scope, .seeded seed⟩
  | none, none => some ⟨config, scope, .unseeded⟩

/-- One more instance, and the fixture with what its builder's source has become. -/
def instantiate (env : Environment) (f : Fixture) : Traced Failure EmbeddedNetwork × Fixture :=
  let embed (built : Traced Failure Network) : Traced Failure EmbeddedNetwork := do
    let network ← built
    return ⟨network, f.scope⟩
  match f.supply with
  | .shared b =>
    let (built, source) := b.builder.build f.config b.source
    (embed built, { f with supply := .shared { b with source } })
  | .seeded seed => (embed (env.builder.build f.config (.seeded (.start seed))).1, f)
  | .unseeded => (embed (env.builder.build f.config env.system).1, f)

end Fixture

end NotaryNetwork
