import NotaryNetwork.Build.Error
import NotaryNetwork.Build.Journal
import NotaryNetwork.Text.Search

/-!
# Validation of identities

The names of workers are marked by a word in their common names, so no member and no service may
have it there. A service must also leave room for the marker after its common name.
-/

namespace NotaryNetwork

/-- The word that marks the names of workers. -/
def workerMarker : String := "NotaryWorker"

def commonNameLimit : Nat := 64

/-- The checks against a marker. -/
structure IdentityValidator where
  marker : String

namespace IdentityValidator

def standard : IdentityValidator := ⟨workerMarker⟩

/-- The common name of an identity does not contain the marker. -/
def validate (v : IdentityValidator) (i : Identity) : Except BuildError Unit :=
  match i.commonName with
  | none => .ok ()
  | some name =>
    if Text.occurs v.marker.toList name.val.toList then
      .error (.invalidIdentity name.val v.marker .containsMarker)
    else .ok ()

/-- The most characters of a common name that leaves room for a space and the marker. -/
def room (v : IdentityValidator) : Int := commonNameLimit - v.marker.length - 1

/-- A service does not have the marker in its common name, and has room for it after. -/
def validateService (v : IdentityValidator) (service : Identity) : Except BuildError Unit := do
  v.validate service
  match service.commonName with
  | none => return ()
  | some name =>
    if v.room < name.val.length then
      throw (.invalidIdentity name.val v.marker (.tooLong v.room))

/-- Checks identities in order, up to the first that fails. -/
def validateAll (v : IdentityValidator) (identities : List Identity) : Traced BuildError Unit := do
  .ofExcept (identities.forM v.validate)
  .log (.identitiesValidated identities.length)

/-- Checks services in order, up to the first that fails. -/
def validateServices (v : IdentityValidator) (services : List Identity) :
    Traced BuildError Unit := do
  .ofExcept (services.forM v.validateService)
  .log (.servicesValidated services.length)

end IdentityValidator

end NotaryNetwork
