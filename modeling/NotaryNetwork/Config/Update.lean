import NotaryNetwork.Config.Basic
import NotaryNetwork.Contract.Validator
import NotaryNetwork.Json.Reader

/-!
# Changing configurations

A change makes a new configuration of an old one. Members are added at the end, unless they are there
already. A service that is declared again keeps its place and gets the new versions, so a
declaration never makes a service repeated (`services_redeclare`).
-/

namespace NotaryNetwork

open Record (Given)

/-- Why a configuration cannot be made. -/
inductive ConfigError
  | identity (error : Identity.ParseError)
  | record (error : RecordError)
  | contract (violation : Contract.Violation)
  | notFound
  | notUtf8 (error : Text.Utf8.DecodeError)
  | unreadable (error : Json.ReadError)
deriving DecidableEq

namespace NetworkConfig

def withSchemeName (c : NetworkConfig) (name : Json.Value) : Except ConfigError NetworkConfig :=
  ((Checked.within (.field "scheme_name") (Record.readNonempty name)).titled title).mapError .record
    |>.map fun name => { c with schemeName := name }

/-- The configuration with more members. Texts are read first; then all members are checked. -/
def withMembers (c : NetworkConfig) (given : List (Given Identity)) :
    Except ConfigError NetworkConfig := do
  let given ← (given.mapM parseText).mapError .identity
  let checked := Checked.within (.field "members")
    (readMembers (.items (c.members.map .made ++ given)))
  let members ← (checked.titled title).mapError .record
  return assemble members c.declared c.schemeName

/-- The declarations with one in the place of that of its service, or at the end. -/
def redeclare (d : NotaryDeclaration) : List NotaryDeclaration → List NotaryDeclaration
  | [] => [d]
  | e :: es => if e.service = d.service then d :: es else e :: redeclare d es

theorem services_redeclare (d : NotaryDeclaration) (ds : List NotaryDeclaration) :
    (redeclare d ds).map (·.service) =
      if d.service ∈ ds.map (·.service) then ds.map (·.service)
      else ds.map (·.service) ++ [d.service] := by
  induction ds with
  | nil => simp [redeclare]
  | cons e es ih =>
    by_cases h : e.service = d.service
    · simp [redeclare, h]
    · have h' : ¬ d.service = e.service := fun same => h same.symm
      rw [redeclare, if_neg h, List.map_cons, ih]
      by_cases m : d.service ∈ es.map (·.service) <;> simp [m, h']

theorem nodup_redeclare {ds : List NotaryDeclaration} (h : (ds.map (·.service)).Nodup)
    (d : NotaryDeclaration) : ((redeclare d ds).map (·.service)).Nodup := by
  rw [services_redeclare]
  split
  · exact h
  · rename_i new
    exact List.nodup_append.mpr ⟨h, by simp, by
      intro x hx y hy same
      simp only [List.mem_singleton] at hy
      exact new (hy ▸ same ▸ hx)⟩

def withDeclaration (c : NetworkConfig) (d : NotaryDeclaration) : NetworkConfig :=
  assemble c.membership ⟨redeclare d c.notaries, nodup_redeclare c.services_nodup d⟩ c.schemeName

/-- The configuration with a service declared, or declared again, with versions. -/
def withNotary (c : NetworkConfig) (service : Given Identity) (versions : List Json.Value) :
    Except ConfigError NetworkConfig := do
  let service ← (parseText service).mapError .identity
  let declared := NotaryDeclaration.ofDraft ⟨some service, some (.array versions)⟩
  let d ← (declared.titled NotaryDeclaration.title).mapError .record
  return c.withDeclaration d

end NetworkConfig

end NotaryNetwork
