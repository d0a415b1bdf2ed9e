import NotaryNetwork.Proofs.Config.Fields
import NotaryNetwork.Proofs.Contract.NetworkConfig
import NotaryNetwork.Proofs.Identity.RoundTrip
import NotaryNetwork.Proofs.Table

/-!
# Configurations as documents

A configuration whose identities have texts can be written as a document: the texts of its members,
the names and the versions of its notaries, and the name of its scheme. The document follows the
contract, and it is read as the same configuration, with everything in the same order
(`ofDocument_toDocument`).
-/

namespace NotaryNetwork

open Json (Value)

/-! ## Documents -/

/-- The document of a declaration: the text of the service and the versions in their order. -/
def NotaryDeclaration.toDocument (d : NotaryDeclaration) : Except Name.SizeFault Value := do
  let name ← d.service.render
  return .object [("name", .text name),
    ("protocol_versions", .array (d.versions.val.map fun version : Nat => .int version))]

/-- The document of a configuration. -/
def NetworkConfig.toDocument (c : NetworkConfig) : Except Name.SizeFault Value := do
  let members ← c.members.mapM Identity.render
  let notaries ← c.notaries.mapM NotaryDeclaration.toDocument
  return .object [("members", .array (members.map .text)), ("notaries", .array notaries),
    ("scheme_name", .text c.schemeName.val)]

namespace Identity

/-- The text of an identity, or nothing if it has none. -/
def shown (i : Identity) : String := i.render.toOption.getD ""

theorem Renderable.render_eq {i : Identity} (h : i.Renderable) : i.render = .ok i.shown := by
  obtain ⟨t, ht⟩ := h
  rw [shown, ht]
  rfl

theorem Renderable.parse_shown {i : Identity} (h : i.Renderable) : parse i.shown = .ok i :=
  (parse_render h.render_eq).1

theorem Renderable.length_shown {i : Identity} (h : i.Renderable) : 1 ≤ i.shown.length :=
  length_pos_of_render h.render_eq

end Identity

namespace NotaryDeclaration

/-- The members of the document of a declaration whose service has a text. -/
def documentMembers (d : NotaryDeclaration) : List (Json.Str × Value) :=
  [("name", .text d.service.shown),
    ("protocol_versions", .array (d.versions.val.map fun version : Nat => .int version))]

theorem toDocument_eq {d : NotaryDeclaration} (text : d.service.Renderable) :
    d.toDocument = .ok (.object d.documentMembers) := by
  unfold toDocument
  rw [text.render_eq]
  rfl

theorem violations_document {d : NotaryDeclaration} (text : d.service.Renderable) :
    Contract.notarySchema.violations (.object d.documentMembers) = [] := by
  obtain ⟨some_version, positive, -⟩ := d.versions.property
  rw [Contract.violations_notary_iff]
  refine ⟨_, rfl, fun key hk => hk, ⟨_, rfl, text.length_shown⟩, _, rfl, ?_, ?_⟩
  · intro empty
    exact some_version (List.map_eq_nil_iff.mp empty)
  · intro x hx
    obtain ⟨n, hn, rfl⟩ := List.mem_map.mp hx
    rw [Contract.violations_version_int]
    have := positive n hn
    omega

/-! ## Reading declarations -/

theorem toVersions_eq (versions : ProtocolVersions) :
    toVersions (versions.val.map Int.ofNat) = .ok versions := by
  obtain ⟨items, positive, nodup⟩ := versions.property
  obtain ⟨made, read, value⟩ := exists_toVersions_ofNat items positive
  rw [distinct_of_nodup nodup] at value
  rw [read, Subtype.ext value]

/-- Versions that are given by their numbers. -/
theorem readVersions_eq (versions : ProtocolVersions) :
    readVersions (.array (versions.val.map fun version : Nat => .int version)) = .ok versions := by
  have integers : (versions.val.map fun version : Nat => Value.int version).mapM
      Record.readInteger = .ok (versions.val.map Int.ofNat) := mapM_map_ok fun _ _ => rfl
  rw [readVersions_of_mapM integers, toVersions_eq]

theorem readIdentity_shown {i : Identity} (text : i.Renderable) :
    readIdentity (.raw (.text i.shown)) = .ok i := by
  rw [readIdentity, text.parse_shown]
  rfl

theorem readDeclaration_document {d : NotaryDeclaration} (text : d.service.Renderable) :
    NetworkConfig.readDeclaration
      (.raw (NetworkConfig.notaryOfDocument (.object d.documentMembers))) = .ok d := by
  show ofDraft ⟨some (.raw (.text d.service.shown)),
    some (.array (d.versions.val.map fun version : Nat => .int version))⟩ = .ok d
  exact ofDraft_eq_ok_iff.mpr ⟨readIdentity_shown text, readVersions_eq d.versions⟩

end NotaryDeclaration

namespace NetworkConfig

/-! ## Reading configurations -/

theorem readMembers_shown {members : List Identity} (nodup : members.Nodup)
    (texts : ∀ m ∈ members, m.Renderable) :
    readMembers (.items (members.map fun m => .raw (.text m.shown))) =
      .ok ⟨members, nodup⟩ := by
  have identities : (members.map fun m => Record.Given.raw (.text m.shown)).mapM
      NotaryDeclaration.readIdentity = .ok members :=
    mapM_map_self fun m hm => NotaryDeclaration.readIdentity_shown (texts m hm)
  exact readMembers_eq_ok_iff.mpr ⟨members, identities, (distinct_of_nodup nodup).symm⟩

theorem readNotaries_document {notaries : List NotaryDeclaration}
    (nodup : (notaries.map (·.service)).Nodup) (texts : ∀ d ∈ notaries, d.service.Renderable) :
    readNotaries (.items (notaries.map fun d =>
      .raw (notaryOfDocument (.object d.documentMembers)))) = .ok ⟨notaries, nodup⟩ := by
  have declared : (notaries.map fun d => Record.Given.raw (notaryOfDocument
      (.object d.documentMembers))).mapM readDeclaration = .ok notaries :=
    mapM_map_self fun d hd => NotaryDeclaration.readDeclaration_document (texts d hd)
  exact readNotaries_eq_ok_iff.mpr declared

variable {c : NetworkConfig}

/-- The members of the document of a configuration whose identities have texts. -/
def documentMembers (c : NetworkConfig) : List (Json.Str × Value) :=
  [("members", .array (c.members.map fun m => .text m.shown)),
    ("notaries", .array (c.notaries.map fun d => .object d.documentMembers)),
    ("scheme_name", .text c.schemeName.val)]

theorem toDocument_eq (members : ∀ m ∈ c.members, m.Renderable)
    (services : ∀ s ∈ c.services, s.Renderable) :
    c.toDocument = .ok (.object c.documentMembers) := by
  have texts : c.members.mapM Identity.render = .ok (c.members.map Identity.shown) :=
    mapM_ok fun m hm => (members m hm).render_eq
  have notaries : c.notaries.mapM NotaryDeclaration.toDocument =
      .ok (c.notaries.map fun d => .object d.documentMembers) :=
    mapM_ok fun d hd => NotaryDeclaration.toDocument_eq (services _ (List.mem_map_of_mem hd))
  unfold toDocument
  rw [texts, notaries]
  show Except.ok _ = _
  rw [List.map_map]
  rfl

/-- **The document of a configuration follows the contract.** -/
theorem validate_document (members : ∀ m ∈ c.members, m.Renderable)
    (services : ∀ s ∈ c.services, s.Renderable) :
    Contract.networkConfig.validate (.object c.documentMembers) = .ok () := by
  rw [Contract.validate_networkConfig_iff]
  refine ⟨_, rfl, fun key hk => hk, ?_, ?_, ?_⟩
  · intro x found
    cases found
    refine ⟨_, rfl, fun y hy => ?_⟩
    obtain ⟨m, hm, rfl⟩ := List.mem_map.mp hy
    exact ⟨_, rfl, (members m hm).length_shown⟩
  · intro x found
    cases found
    refine ⟨_, rfl, fun y hy => ?_⟩
    obtain ⟨d, hd, rfl⟩ := List.mem_map.mp hy
    exact NotaryDeclaration.violations_document (services _ (List.mem_map_of_mem hd))
  · intro x found
    cases found
    exact ⟨_, rfl, c.schemeName.property⟩

theorem draftOfDocument_eq (c : NetworkConfig) :
    draftOfDocument (.object c.documentMembers) =
      ⟨some (.items (c.members.map fun m => .raw (.text m.shown))),
        some (.items (c.notaries.map fun d => .raw (notaryOfDocument (.object d.documentMembers)))),
        some (.text c.schemeName.val)⟩ := by
  show (⟨some (.items ((c.members.map fun m => Value.text m.shown).map .raw)),
    some (.items ((c.notaries.map fun d => Value.object d.documentMembers).map fun notary =>
      .raw (notaryOfDocument notary))), some (.text c.schemeName.val)⟩ : Draft) = _
  rw [List.map_map, List.map_map]
  rfl

theorem ofDraft_document (members : ∀ m ∈ c.members, m.Renderable)
    (services : ∀ s ∈ c.services, s.Renderable) :
    ofDraft (draftOfDocument (.object c.documentMembers)) = .ok c := by
  have texts : ∀ d ∈ c.notaries, d.service.Renderable := by
    intro d hd
    exact services _ (List.mem_map_of_mem hd)
  rw [draftOfDocument_eq, ofDraft]
  simp only [Option.getD_some, readMembers_shown c.members_nodup members,
    readNotaries_document c.services_nodup texts, readNonempty_eq]
  rfl

/-- **A configuration whose identities have texts is written as a document, which follows the
contract and is read as the configuration again.** -/
theorem ofDocument_toDocument (members : ∀ m ∈ c.members, m.Renderable)
    (services : ∀ s ∈ c.services, s.Renderable) :
    ∃ document, c.toDocument = .ok document ∧
      Contract.networkConfig.validate document = .ok () ∧ ofDocument document = .ok c := by
  have valid := validate_document members services
  refine ⟨_, toDocument_eq members services, valid, ?_⟩
  rw [ofDocument, valid, ofDraft_document members services]
  rfl

/-- A chamber of notaries with a comma and a blank at the end of its name. -/
def chamber : Identity :=
  ⟨some ⟨"Kamer, ", by decide⟩, none, ⟨"Notariaat", by decide⟩, ⟨"Brugge", by decide⟩, none,
    ⟨"BE", by decide⟩⟩

/-- A network of the chamber, with a version that exceeds all machine words. -/
def chambers : NetworkConfig :=
  ⟨[Identity.awkward], [⟨chamber, ⟨[100000000000000000000, 7], by decide⟩⟩],
    ⟨"CORDA.NEXT", by decide⟩, by decide, by decide⟩

theorem ofDocument_toDocument_chambers :
    (∀ m ∈ chambers.members, m.Renderable) ∧ (∀ s ∈ chambers.services, s.Renderable) ∧
      ∃ document, chambers.toDocument = .ok document ∧
        Contract.networkConfig.validate document = .ok () ∧ ofDocument document = .ok chambers := by
  have members : ∀ m ∈ chambers.members, m.Renderable := by
    intro m hm
    obtain rfl := List.mem_singleton.mp hm
    exact ⟨_, rfl⟩
  have services : ∀ s ∈ chambers.services, s.Renderable := by
    intro s hs
    obtain rfl := List.mem_singleton.mp hs
    exact ⟨_, rfl⟩
  exact ⟨members, services, ofDocument_toDocument members services⟩

end NetworkConfig

end NotaryNetwork
