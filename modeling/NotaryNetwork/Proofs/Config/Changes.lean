import Mathlib.Logic.Basic
import NotaryNetwork.Proofs.Config.Fields
import NotaryNetwork.Proofs.Table

/-!
# Changes of configurations

What a change does is told by what is given for it, whatever the configuration is (`Change.event?`),
and a change that can be read makes a configuration as its event says (`apply_eq_ok_iff`). A change
does the same as making the whole configuration anew, with all checks of all fields
(`apply_eq_rebuild`).
-/

namespace NotaryNetwork

open Json (Value)
open Record (Given)
open NotaryDeclaration (readIdentity)

namespace NetworkConfig

/-! ## Changes -/

/-- A change with what is given for it. -/
inductive Change
  | members (given : List (Given Identity))
  | notary (service : Given Identity) (versions : List Value)
  | schemeName (name : Value)

/-- What a change is read as. -/
inductive Event
  | joined (members : List Identity)
  | declared (service : Identity) (versions : List Nat)
  | named (schemeName : NonemptyText)

namespace Change

def apply (c : NetworkConfig) : Change → Except ConfigError NetworkConfig
  | members given => c.withMembers given
  | notary service versions => c.withNotary service versions
  | schemeName name => c.withSchemeName name

/-- What a change does, if what is given can be read. No configuration is looked at. -/
def event? : Change → Option Event
  | members given => (given.mapM readIdentity).toOption.map .joined
  | notary service versions => do
    let service ← (readIdentity service).toOption
    let numbers ← (versions.mapM Record.readInteger).toOption
    if numbers ≠ [] ∧ ∀ n ∈ numbers, 1 ≤ n then
      some (.declared service (numbers.map Int.toNat))
    else none
  | schemeName name => (Record.readNonempty name).toOption.map .named

end Change

/-- A configuration is made of another one as an event says. -/
def Event.Makes (c c' : NetworkConfig) : Event → Prop
  | joined members =>
    c'.members = distinct (c.members ++ members) ∧ c'.notaries = c.notaries ∧
      c'.schemeName = c.schemeName
  | declared service versions =>
    c'.members = c.members ∧ (∃ d : NotaryDeclaration, d.service = service ∧
      d.versions.val = distinct versions ∧ c'.notaries = redeclare d c.notaries) ∧
      c'.schemeName = c.schemeName
  | named schemeName =>
    c'.members = c.members ∧ c'.notaries = c.notaries ∧ c'.schemeName = schemeName

variable {c c' : NetworkConfig}

/-! ## One change -/

theorem mapM_readIdentity_made (members : List Identity) :
    (members.map Given.made).mapM readIdentity = .ok members :=
  mapM_map_self fun _ _ => rfl

theorem readMembers_append {read : List (Given Identity)} {members : Members} :
    readMembers (.items (c.members.map .made ++ read)) = .ok members ↔
      ∃ listed, read.mapM readIdentity = .ok listed ∧
        members.val = distinct (c.members ++ listed) := by
  rw [readMembers_eq_ok_iff, List.mapM_append, mapM_readIdentity_made]
  constructor
  · rintro ⟨all, identities, same⟩
    obtain ⟨_, made, rest⟩ := bind_eq_ok.mp identities
    cases made
    obtain ⟨listed, later, whole⟩ := bind_eq_ok.mp rest
    cases whole
    exact ⟨listed, later, same⟩
  · rintro ⟨listed, identities, same⟩
    rw [identities]
    exact ⟨_, rfl, same⟩

theorem withMembers_eq_ok_iff {given : List (Given Identity)} :
    c.withMembers given = .ok c' ↔ ∃ listed, given.mapM readIdentity = .ok listed ∧
      (Event.joined listed).Makes c c' := by
  constructor
  · intro h
    unfold withMembers at h
    obtain ⟨read, parsed, h⟩ := bind_eq_ok.mp h
    obtain ⟨members, checked, h⟩ := bind_eq_ok.mp h
    cases h
    obtain ⟨listed, identities, same⟩ := readMembers_append.mp
      (mapError_eq_ok.mp (mapError_eq_ok.mp (mapError_eq_ok.mp checked)))
    rw [mapM_readIdentity_of_parse (mapError_eq_ok.mp parsed)] at identities
    exact ⟨listed, identities, same, rfl, rfl⟩
  · rintro ⟨listed, identities, members, notaries, schemeName⟩
    obtain ⟨read, parsed⟩ := exists_mapM_parseText identities
    have checked : readMembers (.items (c.members.map .made ++ read)) = .ok c'.membership :=
      readMembers_append.mpr ⟨listed, (mapM_readIdentity_of_parse parsed).trans identities, members⟩
    have same : assemble c'.membership c.declared c.schemeName = c' :=
      assemble_eq_iff.mpr ⟨rfl, notaries.symm, schemeName.symm⟩
    refine bind_eq_ok.mpr ⟨read, mapError_eq_ok.mpr parsed, bind_eq_ok.mpr ⟨c'.membership, ?_, ?_⟩⟩
    · exact mapError_eq_ok.mpr (mapError_eq_ok.mpr (mapError_eq_ok.mpr checked))
    · exact congrArg Except.ok same

theorem withNotary_eq_ok_iff {service : Given Identity} {versions : List Value} :
    c.withNotary service versions = .ok c' ↔ ∃ d : NotaryDeclaration,
      readIdentity service = .ok d.service ∧
      NotaryDeclaration.readVersions (.array versions) = .ok d.versions ∧
      c' = c.withDeclaration d := by
  refine ⟨withNotary_eq_ok, ?_⟩
  rintro ⟨d, identity, numbers, rfl⟩
  obtain ⟨read, parsed⟩ := exists_parseText identity
  rw [← readIdentity_of_parseText parsed] at identity
  have declared := NotaryDeclaration.ofDraft_eq_ok_iff.mpr ⟨identity, numbers⟩
  exact bind_eq_ok.mpr ⟨read, mapError_eq_ok.mpr parsed, bind_eq_ok.mpr
    ⟨d, mapError_eq_ok.mpr (mapError_eq_ok.mpr declared), rfl⟩⟩

theorem withSchemeName_eq_ok_iff {name : Value} :
    c.withSchemeName name = .ok c' ↔ ∃ text, Record.readNonempty name = .ok text ∧
      (Event.named text).Makes c c' := by
  unfold withSchemeName
  rw [map_eq_ok]
  refine exists_congr fun text => ?_
  rw [mapError_eq_ok, Checked.titled, mapError_eq_ok, Checked.within, mapError_eq_ok]
  refine and_congr_right fun _ => ?_
  constructor
  · rintro rfl
    exact ⟨rfl, rfl, rfl⟩
  · rintro ⟨members, notaries, rfl⟩
    have same : assemble c.membership c.declared c'.schemeName = c' :=
      assemble_eq_iff.mpr ⟨members.symm, notaries.symm, rfl⟩
    exact same

theorem withDeclaration_makes {d : NotaryDeclaration} {ns : List Nat}
    (versions : d.versions.val = distinct ns) :
    (Event.declared d.service ns).Makes c (c.withDeclaration d) :=
  ⟨rfl, ⟨d, rfl, versions, rfl⟩, rfl⟩

theorem event?_notary_eq_some_iff {service : Given Identity} {versions : List Value} {e : Event} :
    (Change.notary service versions).event? = some e ↔
      ∃ i ns, readIdentity service = .ok i ∧ versions.mapM Record.readInteger = .ok ns ∧
        (ns ≠ [] ∧ ∀ n ∈ ns, 1 ≤ n) ∧ .declared i (ns.map Int.toNat) = e := by
  simp only [Change.event?, Option.bind_eq_bind, Option.bind_eq_some_iff, toOption_eq_some_iff,
    Option.ite_none_right_eq_some, Option.some.injEq, exists_and_left]

/-- **A change makes a configuration if it can be read, and then as its event says.** -/
theorem apply_eq_ok_iff {change : Change} :
    change.apply c = .ok c' ↔ ∃ e, change.event? = some e ∧ e.Makes c c' := by
  cases change with
  | members given =>
    simp only [Change.apply, withMembers_eq_ok_iff, Change.event?, Option.map_eq_some_iff,
      toOption_eq_some_iff]
    exact exists_exists_and_eq_and.symm
  | schemeName name =>
    simp only [Change.apply, withSchemeName_eq_ok_iff, Change.event?, Option.map_eq_some_iff,
      toOption_eq_some_iff]
    exact exists_exists_and_eq_and.symm
  | notary service versions =>
    simp only [Change.apply, withNotary_eq_ok_iff, event?_notary_eq_some_iff,
      NotaryDeclaration.readVersions_eq_ok_iff]
    constructor
    · rintro ⟨d, identity, ⟨ns, integers, items, positive, value⟩, rfl⟩
      exact ⟨_, ⟨d.service, ns, identity, integers, ⟨items, positive⟩, rfl⟩,
        withDeclaration_makes value⟩
    · rintro ⟨_, ⟨i, ns, identity, integers, ⟨items, positive⟩, rfl⟩, made⟩
      obtain ⟨members, ⟨d, rfl, value, notaries⟩, schemeName⟩ := made
      refine ⟨d, identity, ⟨ns, integers, items, positive, value⟩, ?_⟩
      exact (assemble_eq_iff.mpr ⟨members.symm, notaries.symm, schemeName.symm⟩).symm

/-- Every configuration can be changed in a way that can be read. -/
theorem exists_makes {change : Change} {e : Event} (h : change.event? = some e)
    (c : NetworkConfig) : ∃ c', e.Makes c c' := by
  cases change with
  | members given =>
    obtain ⟨listed, -, rfl⟩ := Option.map_eq_some_iff.mp h
    exact ⟨assemble ⟨_, nodup_distinct (c.members ++ listed)⟩ c.declared c.schemeName,
      rfl, rfl, rfl⟩
  | notary service versions =>
    obtain ⟨i, ns, -, -, ⟨items, positive⟩, rfl⟩ := event?_notary_eq_some_iff.mp h
    obtain ⟨versions, made⟩ := NotaryDeclaration.exists_toVersions items positive
    have value := (NotaryDeclaration.toVersions_eq_ok_iff.mp made).2.2
    exact ⟨c.withDeclaration ⟨i, versions⟩, @withDeclaration_makes c ⟨i, versions⟩ _ value⟩
  | schemeName name =>
    obtain ⟨text, -, rfl⟩ := Option.map_eq_some_iff.mp h
    exact ⟨assemble c.membership c.declared text, rfl, rfl, rfl⟩

theorem exists_apply_iff {change : Change} :
    (∃ c', change.apply c = .ok c') ↔ change.event?.isSome := by
  rw [Option.isSome_iff_exists]
  constructor
  · rintro ⟨c', made⟩
    obtain ⟨e, told, -⟩ := apply_eq_ok_iff.mp made
    exact ⟨e, told⟩
  · rintro ⟨e, told⟩
    obtain ⟨c', makes⟩ := exists_makes told c
    exact ⟨c', apply_eq_ok_iff.mpr ⟨e, told, makes⟩⟩

/-- A change leaves the parts of a configuration that it is not about. -/
def Change.Keeps (c c' : NetworkConfig) : Change → Prop
  | members _ => c'.notaries = c.notaries ∧ c'.schemeName = c.schemeName
  | notary _ _ => c'.members = c.members ∧ c'.schemeName = c.schemeName
  | schemeName _ => c'.members = c.members ∧ c'.notaries = c.notaries

theorem keeps_of_apply {change : Change} (h : change.apply c = .ok c') : change.Keeps c c' := by
  obtain ⟨e, told, makes⟩ := apply_eq_ok_iff.mp h
  cases change with
  | members given =>
    obtain ⟨listed, -, rfl⟩ := Option.map_eq_some_iff.mp told
    exact makes.2
  | notary service versions =>
    obtain ⟨i, ns, -, -, -, rfl⟩ := event?_notary_eq_some_iff.mp told
    exact ⟨makes.1, makes.2.2⟩
  | schemeName name =>
    obtain ⟨text, -, rfl⟩ := Option.map_eq_some_iff.mp told
    exact ⟨makes.1, makes.2.1⟩

/-! ## Making a configuration anew -/

/-- A configuration that is made of all its parts, with all checks. -/
def remake (members : List (Given Identity)) (notaries : List NotaryDeclaration)
    (schemeName : Value) : Except ConfigError NetworkConfig :=
  ((ofDraft ⟨some (.items members), some (.items (notaries.map .made)), some schemeName⟩).titled
    title).mapError .record

/-- The declarations with all those of a service replaced, or with a new one if there is none. -/
def replaceAll (d : NotaryDeclaration) (ds : List NotaryDeclaration) : List NotaryDeclaration :=
  if d.service ∈ ds.map (·.service) then ds.map fun e => if e.service = d.service then d else e
  else ds ++ [d]

/-- A change that makes the whole configuration anew. -/
def Change.rebuild (c : NetworkConfig) : Change → Except ConfigError NetworkConfig
  | members given => do
    let read ← (given.mapM parseText).mapError .identity
    remake (c.members.map .made ++ read) c.notaries (.string c.schemeName.val)
  | notary service versions => do
    let service ← (parseText service).mapError .identity
    let declared := NotaryDeclaration.ofDraft ⟨some service, some (.array versions)⟩
    let d ← (declared.titled NotaryDeclaration.title).mapError .record
    remake (c.members.map .made) (replaceAll d c.notaries) (.string c.schemeName.val)
  | schemeName name => remake (c.members.map .made) c.notaries name

theorem readMembers_made (c : NetworkConfig) :
    readMembers (.items (c.members.map .made)) = .ok c.membership :=
  readMembers_eq_ok_iff.mpr ⟨c.members, mapM_readIdentity_made c.members,
    (distinct_of_nodup c.members_nodup).symm⟩

theorem readNotaries_made (notaries : Notaries) :
    readNotaries (.items (notaries.val.map .made)) = .ok notaries :=
  readNotaries_eq_ok_iff.mpr (mapM_map_self fun _ _ => rfl)

theorem redeclare_eq_map {d : NotaryDeclaration} {ds : List NotaryDeclaration}
    (nodup : (ds.map (·.service)).Nodup) (declared : d.service ∈ ds.map (·.service)) :
    redeclare d ds = ds.map fun e => if e.service = d.service then d else e := by
  induction ds with
  | nil => cases declared
  | cons e es ih =>
    obtain ⟨apart, nodup⟩ := List.nodup_cons.mp nodup
    rw [redeclare, List.map_cons]
    by_cases same : e.service = d.service
    · -- No service is declared twice, so there is nothing to replace behind this declaration.
      have others : es.map (fun e => if e.service = d.service then d else e) = es.map id :=
        List.map_congr_left fun x hx => if_neg fun equal =>
          apart (List.mem_map.mpr ⟨x, hx, equal.trans same.symm⟩)
      rw [if_pos same, if_pos same, others, List.map_id]
    · rw [if_neg same, if_neg same, ih nodup]
      exact (List.mem_cons.mp declared).resolve_left (Ne.symm same)

theorem redeclare_eq_replaceAll {d : NotaryDeclaration} {ds : List NotaryDeclaration}
    (nodup : (ds.map (·.service)).Nodup) : redeclare d ds = replaceAll d ds := by
  unfold replaceAll
  split
  · exact redeclare_eq_map nodup ‹_›
  · exact redeclare_of_not_mem ‹_›

theorem remake_members (members : List (Given Identity)) (notaries : Notaries)
    (name : NonemptyText) : remake members notaries.val (.string name.val) =
      (((Checked.within (.field "members") (readMembers (.items members))).titled title).mapError
        .record).map (assemble · notaries name) := by
  simp only [remake, ofDraft, Option.getD_some, readNotaries_made, readNonempty_eq]
  cases readMembers (.items members) <;> rfl

theorem remake_schemeName (c : NetworkConfig) (name : Value) :
    remake (c.members.map .made) c.notaries name = c.withSchemeName name := by
  have notaries : readNotaries (.items (c.notaries.map .made)) = .ok c.declared :=
    readNotaries_made c.declared
  simp only [remake, ofDraft, Option.getD_some, notaries, readMembers_made, withSchemeName]
  cases Record.readNonempty name <;> rfl

theorem remake_made (c : NetworkConfig) :
    remake (c.members.map .made) c.notaries (.string c.schemeName.val) = .ok c := by
  rw [remake_schemeName, withSchemeName, readNonempty_eq]
  rfl

/-- **A change does just what making the whole configuration anew does, failures included.** -/
theorem apply_eq_rebuild (c : NetworkConfig) (change : Change) :
    change.apply c = change.rebuild c := by
  cases change with
  | members given =>
    rw [Change.apply, withMembers, Change.rebuild]
    refine bind_congr fun read => ?_
    exact (bind_pure_eq_map _ _).trans (remake_members _ c.declared c.schemeName).symm
  | notary service versions =>
    rw [Change.apply, withNotary, Change.rebuild]
    refine bind_congr fun read => bind_congr fun d => ?_
    rw [← redeclare_eq_replaceAll c.services_nodup]
    exact (remake_made (c.withDeclaration d)).symm
  | schemeName name => exact (remake_schemeName c name).symm

end NetworkConfig

end NotaryNetwork
