import NotaryNetwork.Build.Validation
import NotaryNetwork.Declaration

/-!
# Notary topology

Every notary service is run by one worker, whose name is derived from that of the service. No service
and no worker may be a member, and no two services may have one worker.
-/

namespace NotaryNetwork

/-- A way to name the worker of a service. -/
abbrev WorkerNaming := Identity → Except Identity.ParseError Identity

namespace WorkerNaming

/-- The common name of the worker of a service: the marker, after the service's own if it has one. -/
def workerCommonName (service : Identity) : String :=
  match service.commonName with
  | none => workerMarker
  | some name => name.val ++ " " ++ workerMarker

/-- The service with the common name of its worker. -/
def derive (service : Identity) : Checked Identity :=
  service.override fun
    | .commonName => some (.text (workerCommonName service))
    | _ => none

/-- The naming that is used where none is given. -/
def standard : WorkerNaming := fun service => (derive service).mapError .refused

end WorkerNaming

namespace Topology

/-- The failure of a naming on a service. A refused name makes the service invalid. -/
def namingFailure (service : Identity) : Identity.ParseError → Failure
  | .refused issues =>
    match service.render with
    | .error fault => .unrenderable fault
    | .ok text =>
      let commonName := (service.get? .commonName).getD ""
      .build (.invalidIdentity commonName workerMarker (.underivable text ⟨Identity.title, issues⟩))
  | e => .naming e

/-- The workers of declared services, added to those before. -/
def nameWorkers (naming : WorkerNaming) (named : Table Identity Identity) :
    List NotaryDeclaration → Except Failure (Table Identity Identity)
  | [] => .ok named
  | d :: rest =>
    match naming d.service with
    | .ok worker => nameWorkers naming (named.insert d.service worker) rest
    | .error e => .error (namingFailure d.service e)

/-- Services and their workers, one after the other. -/
def candidates (workers : Table Identity Identity) : List Identity :=
  workers.entries.flatMap fun (service, worker) => [service, worker]

/-- The services and workers that are members, each once. -/
def overlap (members : List Identity) (workers : Table Identity Identity) : List Identity :=
  distinct ((candidates workers).filter (· ∈ members))

/-- The failure of services and workers that are members. -/
def overlapFailure (names : List Identity) : Failure :=
  match BuildError.ofOverlap (names.map .identity) with
  | .ok e => .build e
  | .error fault => .unrenderable fault

/-- The first service whose worker has been derived before, after the service that derived it. -/
def sharedWorker? (seen : List (Identity × Identity)) :
    List (Identity × Identity) → Option (Identity × Identity × Identity)
  | [] => none
  | (service, worker) :: rest =>
    match seen.lookup worker with
    | some first => some (first, service, worker)
    | none => sharedWorker? ((worker, service) :: seen) rest

/-- What is said of two services with one worker. -/
def sharedMessage (first second worker : Identity) : Except Name.SizeFault String := do
  let a ← first.render
  let b ← second.render
  let w ← worker.render
  return s!"Notary services {a} and {b} derive the same worker {w}"

def sharedFailure (first second worker : Identity) : Failure :=
  match sharedMessage first second worker with
  | .ok message => .build (.overlap [.identity first, .identity second] message)
  | .error fault => .unrenderable fault

/-- The workers of declared services, if they can be told apart from the members and each other. -/
def resolve (naming : WorkerNaming) (members : List Identity) :
    List NotaryDeclaration → Traced Failure (Table Identity Identity)
  | [] => pure .empty
  | declarations => do
    let workers ← .ofExcept (nameWorkers naming .empty declarations)
    match overlap members workers with
    | [] => pure ()
    | names => .ofExcept (.error (overlapFailure names))
    match sharedWorker? [] workers.entries with
    | none => pure ()
    | some (first, second, worker) => .ofExcept (.error (sharedFailure first second worker))
    .log (.servicesResolved workers.size)
    return workers

end Topology

end NotaryNetwork
