import Mathlib.Data.List.Forall2
import NotaryNetwork.Proofs.Config.Fields
import NotaryNetwork.Proofs.Contract.NetworkConfig

/-!
# Documents that follow the contract

A document that follows the contract, whose texts of identities are in order and whose services are
distinct, is read as the configuration that it describes (`ofDocument_of_validate`). The contract
and the fields differ in two places: a version may be a whole number of any size for the contract,
but where it is written as a double it is read only below 2 ^ 63, and the name of the scheme may be
any text that is not empty, but it is read only if it is not torn.
-/

namespace NotaryNetwork

open Json (Value)
open NotaryDeclaration (readIdentity)

/-! ## Versions -/

/-- A value is a whole number from 2 ^ 63 on that is written as a double. -/
def Json.Value.IsWide (v : Value) : Prop :=
  ∃ x n, v = .real x ∧ x.toInt? = some n ∧ 0x8000000000000000 ≤ n

theorem Json.Value.isWide_real_iff {x : Json.Binary64} {n : Int} (whole : x.toInt? = some n) :
    (Value.real x).IsWide ↔ 0x8000000000000000 ≤ n := by
  constructor
  · rintro ⟨_, k, same, value, large⟩
    cases same
    cases value.symm.trans whole
    exact large
  · exact fun large => ⟨x, n, rfl, whole, large⟩

/-- **A positive whole number is read as itself, unless it is a double of more than 63 bits.** -/
theorem Record.readInteger_eq_ok_iff {v : Value} {m n : Int} (whole : v.toInt? = some n)
    (positive : 1 ≤ n) : readInteger v = .ok m ↔ m = n ∧ ¬ v.IsWide := by
  cases v with
  | int k =>
    cases whole
    simp [readInteger, Value.IsWide, eq_comm]
  | real x =>
    rw [Value.isWide_real_iff whole]
    cases x with
    | finite q =>
      obtain ⟨den, rfl⟩ := Contract.toInt?_finite_iff.mp whole
      rw [readInteger, if_neg (not_not_intro den)]
      by_cases narrow : q.num.natAbs < 0x8000000000000000
      · rw [if_pos narrow, Except.ok.injEq]
        omega
      · rw [if_neg narrow]
        exact ⟨nofun, fun h => absurd h.2 (by omega)⟩
    | _ => cases whole
  | _ => cases whole

/-- The versions of a notary of a document. -/
def NetworkConfig.versionsOf (notary : Value) : List Value :=
  NetworkConfig.itemsOf ((notary.get? "protocol_versions").getD .null)

/-- Values stand for whole numbers, each for its own. -/
abbrev AreNumbers (vs : List Value) (ns : List Nat) : Prop :=
  List.Forall₂ (fun v (n : Nat) => v.toInt? = some (n : Int)) vs ns

theorem exists_areNumbers {vs : List Value}
    (valid : ∀ v ∈ vs, Contract.versionSchema.violations v = []) :
    ∃ ns, AreNumbers vs ns ∧ ∀ n ∈ ns, 1 ≤ n := by
  induction vs with
  | nil => exact ⟨[], .nil, nofun⟩
  | cons v vs ih =>
    obtain ⟨first, later⟩ := List.forall_mem_cons.mp valid
    obtain ⟨n, whole, positive⟩ := Contract.violations_version_iff.mp first
    obtain ⟨ns, numbers, least⟩ := ih later
    have natural : ((n.toNat : Nat) : Int) = n := Int.toNat_of_nonneg (by omega)
    refine ⟨n.toNat :: ns, .cons (natural.symm ▸ whole) numbers, ?_⟩
    exact List.forall_mem_cons.mpr ⟨by omega, least⟩

theorem mapM_readInteger_iff {vs : List Value} {ns : List Nat} (numbers : AreNumbers vs ns)
    (positive : ∀ n ∈ ns, 1 ≤ n) {ms : List Int} :
    vs.mapM Record.readInteger = .ok ms ↔ ms = ns.map Int.ofNat ∧ ∀ v ∈ vs, ¬ v.IsWide := by
  induction numbers generalizing ms with
  | nil => simp [pure, Except.pure, eq_comm]
  | cons whole _ ih =>
    obtain ⟨first, later⟩ := List.forall_mem_cons.mp positive
    rw [List.mapM_cons, bind_eq_ok, List.forall_mem_cons]
    simp only [Record.readInteger_eq_ok_iff whole (Int.ofNat_le.mpr first), bind_eq_ok, ih later]
    constructor
    · rintro ⟨_, ⟨rfl, narrow⟩, _, ⟨rfl, others⟩, same⟩
      cases same
      exact ⟨rfl, narrow, others⟩
    · rintro ⟨rfl, narrow, others⟩
      exact ⟨_, ⟨rfl, narrow⟩, _, ⟨rfl, others⟩, rfl⟩

namespace NetworkConfig

/-! ## Notaries -/

/-- A value is the text of an identity. -/
def Spells (v : Value) (i : Identity) : Prop := ∃ s, v = .text s ∧ Identity.parse s = .ok i

/-- The name of a notary is the text of an identity. -/
def Names (notary : Value) (i : Identity) : Prop := ∃ v, notary.get? "name" = some v ∧ Spells v i

/-- The versions of a notary stand for numbers, which are these, each where it comes first. -/
def HasVersions (notary : Value) (versions : List Nat) : Prop :=
  ∃ ns, AreNumbers (versionsOf notary) ns ∧ versions = distinct ns

theorem Spells.readIdentity_eq {v : Value} {i : Identity} (h : Spells v i) :
    readIdentity (.raw v) = .ok i := by
  obtain ⟨s, rfl, parsed⟩ := h
  rw [readIdentity, parsed]
  rfl

/-- The parts of a notary that follows the contract. -/
theorem exists_parts {notary : Value} (valid : Contract.notarySchema.violations notary = []) :
    ∃ name ns, notary.get? "name" = some name ∧
      readDeclaration (.raw (notaryOfDocument notary)) =
        NotaryDeclaration.ofDraft ⟨some (.raw name), some (.array (versionsOf notary))⟩ ∧
      AreNumbers (versionsOf notary) ns ∧ ns ≠ [] ∧ ∀ n ∈ ns, 1 ≤ n := by
  obtain ⟨members, rfl, -, ⟨s, hn, -⟩, vs, hv, items, each⟩ :=
    Contract.violations_notary_iff.mp valid
  have held : versionsOf (.object members) = vs := by
    rw [versionsOf, Value.get?, hv]
    rfl
  obtain ⟨ns, numbers, positive⟩ := exists_areNumbers each
  refine ⟨.string s, ns, hn, ?_, held.symm ▸ numbers, ?_, positive⟩
  · rw [held, notaryOfDocument, Value.get?, Value.get?, hn, hv]
    rfl
  · rintro rfl
    cases numbers
    exact items rfl

section Notary

variable {notary : Value} (valid : Contract.notarySchema.violations notary = [])

include valid

/-- **A notary that follows the contract is read as it says, unless a version is wide.** -/
theorem exists_readDeclaration {i : Identity} (named : Names notary i)
    (narrow : ∀ v ∈ versionsOf notary, ¬ v.IsWide) :
    ∃ d, readDeclaration (.raw (notaryOfDocument notary)) = .ok d ∧ d.service = i ∧
      HasVersions notary d.versions.val := by
  obtain ⟨name, ns, found, read, numbers, items, positive⟩ := exists_parts valid
  obtain ⟨_, same, spells⟩ := named
  cases found.symm.trans same
  have integers := (mapM_readInteger_iff numbers positive).mpr ⟨rfl, narrow⟩
  obtain ⟨versions, made, value⟩ := NotaryDeclaration.exists_toVersions_ofNat items positive
  refine ⟨⟨i, versions⟩, ?_, rfl, ns, numbers, value⟩
  rw [read, NotaryDeclaration.ofDraft_eq_ok_iff]
  exact ⟨spells.readIdentity_eq, (NotaryDeclaration.readVersions_of_mapM integers).trans made⟩

/-- A notary with a wide version is refused. -/
theorem not_isWide_of_readDeclaration {d : NotaryDeclaration}
    (h : readDeclaration (.raw (notaryOfDocument notary)) = .ok d) :
    ∀ v ∈ versionsOf notary, ¬ v.IsWide := by
  obtain ⟨name, ns, -, read, numbers, -, positive⟩ := exists_parts valid
  rw [read, NotaryDeclaration.ofDraft_eq_ok_iff] at h
  obtain ⟨ms, integers, -⟩ := NotaryDeclaration.readVersions_eq_ok_iff.mp h.2
  exact ((mapM_readInteger_iff numbers positive).mp integers).2

end Notary

/-- The declarations of notaries that follow the contract. -/
theorem exists_declarations {notaries : List Value} {services : List Identity}
    (names : List.Forall₂ Names notaries services)
    (valid : ∀ notary ∈ notaries, Contract.notarySchema.violations notary = [])
    (narrow : ∀ notary ∈ notaries, ∀ v ∈ versionsOf notary, ¬ v.IsWide) :
    ∃ ds, notaries.mapM (fun notary => readDeclaration (.raw (notaryOfDocument notary))) = .ok ds ∧
      ds.map (·.service) = services ∧
      List.Forall₂ HasVersions notaries (ds.map (·.versions.val)) := by
  induction names with
  | nil => exact ⟨[], rfl, rfl, .nil⟩
  | cons named _ ih =>
    obtain ⟨first, valid⟩ := List.forall_mem_cons.mp valid
    obtain ⟨here, narrow⟩ := List.forall_mem_cons.mp narrow
    obtain ⟨d, read, service, versions⟩ := exists_readDeclaration first named here
    obtain ⟨ds, later, services, others⟩ := ih valid narrow
    refine ⟨d :: ds, ?_, ?_, .cons versions others⟩
    · rw [List.mapM_cons, read, later]
      rfl
    · rw [List.map_cons, service, services]

/-! ## Configurations -/

/-- The texts of the members of a document. -/
def membersOf (document : Value) : List Value := itemsOf ((document.get? "members").getD .null)

/-- The notaries of a document. -/
def notariesOf (document : Value) : List Value := itemsOf ((document.get? "notaries").getD .null)

/-- A configuration is what a document describes, given the identities that its texts spell. The
name of the scheme is that of the document, or the default one. -/
structure Describes (document : Value) (listed services : List Identity) (c : NetworkConfig) :
    Prop where
  members : c.members = distinct listed
  services : c.services = services
  versions : List.Forall₂ HasVersions (notariesOf document) (c.notaries.map (·.versions.val))
  schemeName : (document.get? "scheme_name").getD (.text defaultSchemeName.val) =
    .text c.schemeName.val

/-- The name of the scheme of a document is torn. -/
def HasTornScheme (document : Value) : Prop :=
  ∃ t, document.get? "scheme_name" = some (.string (.torn t))

/-- A version of a notary of a document is a wide number. -/
def HasWideVersion (document : Value) : Prop :=
  ∃ notary ∈ notariesOf document, ∃ v ∈ versionsOf notary, v.IsWide

theorem mapM_readIdentity_of_spells {vs : List Value} {listed : List Identity}
    (h : List.Forall₂ Spells vs listed) : (vs.map .raw).mapM readIdentity = .ok listed := by
  induction h with
  | nil => rfl
  | cons spells _ ih =>
    rw [List.map_cons, List.mapM_cons, spells.readIdentity_eq, ih]
    rfl

theorem readNotaries_eq {document : Value} {notaries : Notaries} :
    readNotaries (.items ((notariesOf document).map fun notary =>
      .raw (notaryOfDocument notary))) = .ok notaries ↔
      (notariesOf document).mapM (fun notary => readDeclaration (.raw (notaryOfDocument notary))) =
        .ok notaries.val := by
  rw [readNotaries_eq_ok_iff, List.mapM_map]
  rfl

theorem ofDocument_eq {document : Value}
    (valid : Contract.networkConfig.validate document = .ok ()) : ofDocument document =
      ((ofDraft (draftOfDocument document)).titled title).mapError .record := by
  rw [ofDocument, valid]
  rfl

variable {document : Value} (valid : Contract.networkConfig.validate document = .ok ())

include valid

theorem violations_of_mem_notariesOf {notary : Value} (h : notary ∈ notariesOf document) :
    Contract.notarySchema.violations notary = [] := by
  obtain ⟨fields, rfl, -, -, notaries, -⟩ := Contract.validate_networkConfig_iff.mp valid
  unfold notariesOf Value.get? at h
  cases found : fields.lookup (.text "notaries") with
  | none =>
    simp [found, itemsOf] at h
  | some x =>
    obtain ⟨vs, rfl, each⟩ := notaries x found
    simp only [found, Option.getD_some, itemsOf] at h
    exact each notary h

theorem exists_schemeName (whole : ¬ HasTornScheme document) : ∃ name : NonemptyText,
    (document.get? "scheme_name").getD (.text defaultSchemeName.val) = .text name.val := by
  obtain ⟨fields, rfl, -, -, -, schemeName⟩ := Contract.validate_networkConfig_iff.mp valid
  show ∃ name : NonemptyText,
    (fields.lookup (.text "scheme_name")).getD (.text defaultSchemeName.val) = .text name.val
  cases found : fields.lookup (.text "scheme_name") with
  | none => exact ⟨defaultSchemeName, rfl⟩
  | some x =>
    obtain ⟨s, rfl, filled⟩ := schemeName x found
    cases s with
    | text s => exact ⟨⟨s, filled⟩, rfl⟩
    | torn t => exact absurd ⟨t, found⟩ whole

variable {listed services : List Identity}

theorem ofDocument_of_narrow (members : List.Forall₂ Spells (membersOf document) listed)
    (names : List.Forall₂ Names (notariesOf document) services) (nodup : services.Nodup)
    (narrow : ¬ HasWideVersion document) (whole : ¬ HasTornScheme document) :
    ∃ c, ofDocument document = .ok c ∧ Describes document listed services c := by
  have each : ∀ notary ∈ notariesOf document, Contract.notarySchema.violations notary = [] :=
    fun _ h => violations_of_mem_notariesOf valid h
  obtain ⟨name, named⟩ := exists_schemeName valid whole
  obtain ⟨ds, declared, same, versions⟩ := exists_declarations names each
    fun notary hn v hv wide => narrow ⟨notary, hn, v, hv, wide⟩
  have unique : (ds.map (·.service)).Nodup := same.symm ▸ nodup
  have made : ofDraft (draftOfDocument document) =
      .ok ⟨distinct listed, ds, name, nodup_distinct listed, unique⟩ := by
    refine ofDraft_eq_ok_iff.mpr ⟨?_, ?_, ?_⟩
    · exact readMembers_eq_ok_iff.mpr ⟨listed, mapM_readIdentity_of_spells members, rfl⟩
    · exact readNotaries_eq.mpr declared
    · exact (congrArg Record.readNonempty named).trans (readNonempty_eq name)
  rw [ofDocument_eq valid, made]
  exact ⟨_, rfl, rfl, same, versions, named⟩

/-- A wide version is not read, and neither is a torn name of a scheme. -/
theorem ofDraft_ne_ok (unread : HasWideVersion document ∨ HasTornScheme document)
    (c : NetworkConfig) : ofDraft (draftOfDocument document) ≠ .ok c := by
  intro made
  obtain ⟨-, notaries, schemeName⟩ := ofDraft_eq_ok_iff.mp made
  rcases unread with ⟨notary, hn, v, hv, wide⟩ | ⟨t, torn⟩
  · obtain ⟨d, read⟩ := ok_of_mapM (readNotaries_eq.mp notaries) notary hn
    have sound := violations_of_mem_notariesOf valid hn
    exact not_isWide_of_readDeclaration sound read v hv wide
  · have given : (draftOfDocument document).schemeName = some (.string (.torn t)) := torn
    rw [given] at schemeName
    cases schemeName

theorem ofDocument_ne_ok (unread : HasWideVersion document ∨ HasTornScheme document)
    (c : NetworkConfig) : ofDocument document ≠ .ok c := by
  rw [ofDocument_eq valid]
  cases made : ofDraft (draftOfDocument document) with
  | ok c => exact absurd made (ofDraft_ne_ok valid unread c)
  | error issues => exact nofun

/-- **A document that follows the contract, whose texts spell identities and whose services are
distinct, is read as the configuration that it describes, unless a version is wide or the name of the
scheme is torn; then the record is refused.** -/
theorem ofDocument_of_validate (members : List.Forall₂ Spells (membersOf document) listed)
    (names : List.Forall₂ Names (notariesOf document) services) (nodup : services.Nodup) :
    (¬ HasWideVersion document → ¬ HasTornScheme document →
      ∃ c, ofDocument document = .ok c ∧ Describes document listed services c) ∧
    (HasWideVersion document ∨ HasTornScheme document →
      ∃ e, ofDocument document = .error (.record e)) := by
  refine ⟨ofDocument_of_narrow valid members names nodup, fun unread => ?_⟩
  rw [ofDocument_eq valid]
  cases made : ofDraft (draftOfDocument document) with
  | error issues => exact ⟨_, rfl⟩
  | ok c => exact absurd made (ofDraft_ne_ok valid unread c)

omit valid

/-! ## A document -/

/-- A harbour office. -/
def harbour : Identity :=
  ⟨none, none, ⟨"Havn", by decide⟩, ⟨"Aarhus", by decide⟩, none, ⟨"DK", by decide⟩⟩

/-- The text of the office. -/
def harbourText : Value := .text "O=Havn, L=Aarhus, C=DK"

/-- A document with the office as its only member and its only notary. -/
def harbourDocument (versions : List Value) : Value :=
  .object [("members", .array [harbourText]), ("notaries", .array [.object [
    ("name", harbourText), ("protocol_versions", .array versions)]])]

theorem spells_harbour : Spells harbourText harbour := ⟨_, rfl, by decide +kernel⟩

theorem members_harbour (versions : List Value) :
    List.Forall₂ Spells (membersOf (harbourDocument versions)) [harbour] :=
  .cons spells_harbour .nil

theorem names_harbour (versions : List Value) :
    List.Forall₂ Names (notariesOf (harbourDocument versions)) [harbour] :=
  .cons ⟨_, rfl, spells_harbour⟩ .nil

/-- Two versions, the first of them given twice. -/
def fewVersions : List Value := [.real (.finite 2), .int 2, .int 1]

theorem ofDocument_of_validate_harbour :
    Contract.networkConfig.validate (harbourDocument fewVersions) = .ok () ∧
      List.Forall₂ Spells (membersOf (harbourDocument fewVersions)) [harbour] ∧
      List.Forall₂ Names (notariesOf (harbourDocument fewVersions)) [harbour] ∧
      ∃ c, ofDocument (harbourDocument fewVersions) = .ok c ∧
        Describes (harbourDocument fewVersions) [harbour] [harbour] c := by
  have valid : Contract.networkConfig.validate (harbourDocument fewVersions) = .ok () := by
    decide +kernel
  have narrow : ∀ v ∈ fewVersions, ¬ v.IsWide := by
    rintro v hv ⟨x, n, rfl, whole, large⟩
    simp only [fewVersions, List.mem_cons, Value.real.injEq, reduceCtorEq, List.not_mem_nil,
      or_false] at hv
    obtain rfl := hv
    cases whole
    exact absurd large (by decide)
  have members := members_harbour fewVersions
  have names := names_harbour fewVersions
  refine ⟨valid, members, names,
    (ofDocument_of_validate valid members names (by simp)).1 ?_ ?_⟩
  · rintro ⟨notary, hn, v, hv, wide⟩
    obtain rfl := List.mem_singleton.mp hn
    exact narrow v hv wide
  · rintro ⟨t, torn⟩
    cases torn

/-- A version that the contract takes, and which is not read. -/
def hugeVersions : List Value := [.real (.finite 100000000000000000000)]

/-- A document with a torn name of a scheme. -/
def tornDocument : Value := .object [("scheme_name", .string (.torn ⟨[0xD800], rfl⟩))]

/-- The two documents follow the contract and are refused. -/
theorem not_loaded_unread :
    (Contract.networkConfig.validate (harbourDocument hugeVersions) = .ok () ∧
      List.Forall₂ Spells (membersOf (harbourDocument hugeVersions)) [harbour] ∧
      List.Forall₂ Names (notariesOf (harbourDocument hugeVersions)) [harbour] ∧
      [harbour].Nodup ∧ ∀ c, ofDocument (harbourDocument hugeVersions) ≠ .ok c) ∧
    Contract.networkConfig.validate tornDocument = .ok () ∧
      membersOf tornDocument = [] ∧ notariesOf tornDocument = [] ∧
      ∀ c, ofDocument tornDocument ≠ .ok c := by
  have valid : Contract.networkConfig.validate (harbourDocument hugeVersions) = .ok () := by
    decide +kernel
  have valid' : Contract.networkConfig.validate tornDocument = .ok () := by decide +kernel
  have wide : HasWideVersion (harbourDocument hugeVersions) :=
    ⟨_, List.mem_cons_self, _, List.mem_cons_self, _, 100000000000000000000, rfl, rfl, by decide⟩
  have torn : HasTornScheme tornDocument := ⟨_, rfl⟩
  exact ⟨⟨valid, members_harbour _, names_harbour _, by simp, ofDocument_ne_ok valid (.inl wide)⟩,
    valid', rfl, rfl, ofDocument_ne_ok valid' (.inr torn)⟩

end NetworkConfig

end NotaryNetwork
