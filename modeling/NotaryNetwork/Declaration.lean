import NotaryNetwork.Identity.Parser
import NotaryNetwork.Record.Numeral
import NotaryNetwork.Table

/-!
# Notary declarations

A notary service and the versions of its protocol: at least one, all positive, each once, in the
order in which they were first given.
-/

namespace NotaryNetwork

/-- Protocol versions: at least one, all positive, each once. -/
abbrev ProtocolVersions :=
  { versions : List Nat // versions ≠ [] ∧ (∀ v ∈ versions, 1 ≤ v) ∧ versions.Nodup }

/-- A notary service and its protocol versions. -/
structure NotaryDeclaration where
  service : Identity
  versions : ProtocolVersions
deriving DecidableEq

namespace NotaryDeclaration

open Record (Given)

/-- The name of the record type in reports. -/
def title : String := "NotaryDeclaration"

/-- What a caller gives for a declaration. -/
structure Draft where
  service : Option (Given Identity)
  versions : Option Json.Value

/-- The issues of a text that makes no identity: those of its fields, or one of the whole text. -/
def parseIssues : Identity.ParseError → List Issue
  | .refused issues => issues
  | e => [⟨[], .stated e.message⟩]

/-- An identity that is finished, given by fields or given by its text. A torn text spells no identity:
a lone surrogate is part of no name, or it stands in a field, which is refused. -/
def readIdentity : Given Identity → Checked Identity
  | .made i => .ok i
  | .raw (.string (.text s)) => (Identity.parse s).mapError parseIssues
  | .raw (.string (.torn _)) => .fail .torn
  | .raw (.object members) => Identity.ofMembers members
  | .raw _ => .fail (.notRecord Identity.title)

theorem pos_of_mem_distinct_toNat {ns : List Int} (h : ∀ m ∈ ns, 1 ≤ m) :
    ∀ v ∈ distinct (ns.map Int.toNat), 1 ≤ v := by
  intro v hv
  obtain ⟨m, hm, rfl⟩ := List.mem_map.mp (mem_distinct.mp hv)
  have := h m hm
  omega

def collapseVersions (n : Int) (ns : List Int) (h : ∀ m ∈ n :: ns, 1 ≤ m) : ProtocolVersions :=
  ⟨distinct ((n :: ns).map Int.toNat), List.cons_ne_nil _ _, pos_of_mem_distinct_toNat h,
    nodup_distinct _⟩

/-- What is said of a version that is not positive. -/
def notPositive (version : Int) : String :=
  match Text.written? version with
  | some text => s!"protocol version {text} must be >= 1"
  | none => Text.tooManyDigits

/-- Integers as versions: there must be one, and all must be positive. -/
def toVersions : List Int → Checked ProtocolVersions
  | [] => .fail .noItem
  | n :: ns =>
    if h : ∀ m ∈ n :: ns, 1 ≤ m then .ok (collapseVersions n ns h)
    else
      let bad := ((n :: ns).find? (· < 1)).getD 0
      .fail (.stated (notPositive bad))

def readVersions : Json.Value → Checked ProtocolVersions
  | .array vs =>
    let checks := Record.readItems Record.readInteger 0 vs
    match Checked.all checks with
    | .ok ns => toVersions ns
    | .error issues =>
      .error (if Checked.noneSucceeds checks then issues ++ [⟨[], .noItem⟩] else issues)
  | _ => .fail .notList

def ofDraft (draft : Draft) : Checked NotaryDeclaration :=
  Checked.start NotaryDeclaration.mk
    |>.both (Record.required "service" readIdentity draft.service)
    |>.both (Record.required "protocol_versions" readVersions draft.versions)

def draftOfMembers (members : List (Json.Str × Json.Value)) : Draft where
  service := (members.lookup (.text "service")).map .raw
  versions := members.lookup (.text "protocol_versions")

end NotaryDeclaration

end NotaryNetwork
