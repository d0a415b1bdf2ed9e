import NotaryNetwork.Declaration

/-!
# Network configurations

The members of a network, its notary declarations and the name of its key scheme. Members are
distinct, and so are the services declared; every way to make a configuration keeps this. A member
given twice is kept at its first place, a service declared twice is refused.
-/

namespace NotaryNetwork

open Record (Given GivenList)

/-- A configuration of a network. -/
structure NetworkConfig where
  members : List Identity
  notaries : List NotaryDeclaration
  schemeName : NonemptyText
  members_nodup : members.Nodup
  services_nodup : (notaries.map (·.service)).Nodup
deriving DecidableEq

namespace NetworkConfig

/-- The name of the record type in reports. -/
def title : String := "NetworkConfig"

/-- The scheme of a configuration that names none. -/
def defaultSchemeName : NonemptyText := ⟨"CORDA.ECDSA.SECP256R1", by decide⟩

/-- The services in the order of their declarations. -/
def services (c : NetworkConfig) : List Identity := c.notaries.map (·.service)

/-! ## Fields -/

/-- What a caller gives for a configuration; what is absent is empty, or the default scheme. -/
structure Draft where
  members : Option (GivenList (Given Identity))
  notaries : Option (GivenList (Given NotaryDeclaration))
  schemeName : Option Json.Value

/-- Members that are distinct. -/
abbrev Members := { members : List Identity // members.Nodup }

/-- Declarations of distinct services. -/
abbrev Notaries := { notaries : List NotaryDeclaration // (notaries.map (·.service)).Nodup }

/-- The members with the proof that they are distinct. -/
def membership (c : NetworkConfig) : Members := ⟨c.members, c.members_nodup⟩

/-- The declarations with the proof that their services are distinct. -/
def declared (c : NetworkConfig) : Notaries := ⟨c.notaries, c.services_nodup⟩

/-- The identity that a text spells; what is given otherwise, or by a torn text, stays as it is. -/
def parseText : Given Identity → Except Identity.ParseError (Given Identity)
  | .raw (.string (.text s)) => (Identity.parse s).map .made
  | given => .ok given

/-- The value of the members. Texts are read first, and the first that makes no identity is the only
one reported. -/
def readMembers : GivenList (Given Identity) → Checked Members
  | .other _ => .fail .notList
  | .items given =>
    match given.mapM parseText with
    | .error e => .error (NotaryDeclaration.parseIssues e)
    | .ok given =>
      (Checked.all (Record.readItems NotaryDeclaration.readIdentity 0 given)).map fun members =>
        ⟨distinct members, nodup_distinct members⟩

/-- A declaration that is finished or given by fields. -/
def readDeclaration : Given NotaryDeclaration → Checked NotaryDeclaration
  | .made d => .ok d
  | .raw (.object members) => NotaryDeclaration.ofDraft (NotaryDeclaration.draftOfMembers members)
  | .raw _ => .fail (.notRecord NotaryDeclaration.title)

/-- What is said of a service that is declared twice. -/
def repeatedService (service : Identity) : String :=
  match service.render with
  | .ok text => s!"notary service {text} declared more than once"
  | .error fault => fault.message

def checkServices (notaries : List NotaryDeclaration) : Checked Notaries :=
  match h : firstRepeat? [] (notaries.map (·.service)) with
  | none => .ok ⟨notaries, nodup_of_firstRepeat? h⟩
  | some service => .fail (.stated (repeatedService service))

def readNotaries : GivenList (Given NotaryDeclaration) → Checked Notaries
  | .other _ => .fail .notList
  | .items given =>
    match Checked.all (Record.readItems readDeclaration 0 given) with
    | .ok notaries => checkServices notaries
    | .error issues => .error issues

def assemble (members : Members) (notaries : Notaries) (schemeName : NonemptyText) :
    NetworkConfig :=
  ⟨members.val, notaries.val, schemeName, members.property, notaries.property⟩

def ofDraft (draft : Draft) : Checked NetworkConfig :=
  Checked.start assemble
    |>.both (.within (.field "members") (readMembers (draft.members.getD (.items []))))
    |>.both (.within (.field "notaries") (readNotaries (draft.notaries.getD (.items []))))
    |>.both (.within (.field "scheme_name")
      (Record.readNonempty (draft.schemeName.getD (.text defaultSchemeName.val))))

end NetworkConfig

end NotaryNetwork
