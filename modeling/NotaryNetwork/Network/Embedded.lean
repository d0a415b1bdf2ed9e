import NotaryNetwork.Build.Journal
import NotaryNetwork.Json.Literal
import NotaryNetwork.Network.Basic

/-!
# Embedded networks

A network with the scope in which it lives: one for a whole suite of tests or one for every test.
Nodes are started with its keys and group parameters.
-/

namespace NotaryNetwork

/-- How long a network lives. -/
inductive NetworkScope
  | perSuite
  | perTest
deriving DecidableEq

namespace NetworkScope

def name : NetworkScope → String
  | perSuite => "PER_SUITE"
  | perTest => "PER_TEST"

/-- The text that selects a scope. -/
def value : NetworkScope → String
  | perSuite => "per_suite"
  | perTest => "per_test"

/-- The scope of the test framework: a suite is a module, a test a function. -/
def frameworkScope : NetworkScope → String
  | perSuite => "module"
  | perTest => "function"

def all : List NetworkScope := [perSuite, perTest]

def ofValue? : Json.Value → Option NetworkScope
  | .string (.text value) => all.find? (·.value = value)
  | _ => none

/-- What is said of a value that is the value of no scope. -/
def invalidMessage (value : Json.Value) : String :=
  value.shown ++ " is not a valid NetworkScope"

end NetworkScope

/-- A network in its scope. -/
structure EmbeddedNetwork where
  network : Network
  scope : NetworkScope

namespace EmbeddedNetwork

/-- What nodes are started with. -/
structure Launch where
  members : Table Identity KeyPair
  notaries : Table Identity KeyPair
  groupParameters : List GroupParameter

def start (e : EmbeddedNetwork) : Traced Failure Launch := do
  .log (.nodesStarted e.network.members.size e.network.notaries.size e.scope.value)
  return ⟨e.network.members, e.network.notaries, e.network.groupParameters⟩

def workerFor (e : EmbeddedNetwork) (service : Identity) : Except Failure Identity :=
  e.network.workerFor service

end EmbeddedNetwork

end NotaryNetwork
