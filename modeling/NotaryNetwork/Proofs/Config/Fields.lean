import NotaryNetwork.Config.Document
import NotaryNetwork.Proofs.Config.Update

/-!
# What the fields of configurations are read as

Reading a field succeeds if and only if reading all that it holds does, so a configuration that has
been read is told by what was given for it: versions (`readVersions_eq_ok_iff`), declarations
(`ofDraft_eq_ok_iff`), members (`readMembers_eq_ok_iff`), notaries (`readNotaries_eq_ok_iff`) and
the configuration as a whole.
-/

namespace NotaryNetwork

open Json (Value)
open Record (Given)

namespace NotaryDeclaration

/-- Integers are versions if there is one and all are positive. -/
theorem toVersions_eq_ok_iff {ns : List Int} {versions : ProtocolVersions} :
    toVersions ns = .ok versions ↔
      ns ≠ [] ∧ (∀ n ∈ ns, 1 ≤ n) ∧ versions.val = distinct (ns.map Int.toNat) := by
  cases ns with
  | nil => simp [toVersions, Checked.fail]
  | cons n ns =>
    by_cases positive : ∀ m ∈ n :: ns, 1 ≤ m
    · rw [toVersions, dif_pos positive, Except.ok.injEq, Subtype.ext_iff]
      exact ⟨fun same => ⟨List.cons_ne_nil n ns, positive, same.symm⟩, fun h => h.2.2.symm⟩
    · rw [toVersions, dif_neg positive]
      exact ⟨nofun, fun h => absurd h.2.1 positive⟩

theorem exists_toVersions {ns : List Int} (some_version : ns ≠ []) (positive : ∀ n ∈ ns, 1 ≤ n) :
    ∃ versions, toVersions ns = .ok versions := by
  cases ns with
  | nil => exact absurd rfl some_version
  | cons n ns => exact ⟨_, dif_pos positive⟩

/-- Positive natural numbers are versions, each where it comes first. -/
theorem exists_toVersions_ofNat {ns : List Nat} (items : ns ≠ []) (positive : ∀ n ∈ ns, 1 ≤ n) :
    ∃ versions, toVersions (ns.map Int.ofNat) = .ok versions ∧ versions.val = distinct ns := by
  have least : ∀ n ∈ ns.map Int.ofNat, 1 ≤ n := by
    rw [List.forall_mem_map]
    exact fun n hn => Int.ofNat_le.mpr (positive n hn)
  have back : (ns.map Int.ofNat).map Int.toNat = ns := by
    rw [List.map_map]
    exact List.map_id _
  obtain ⟨versions, made⟩ := exists_toVersions (mt List.map_eq_nil_iff.mp items) least
  have value := (toVersions_eq_ok_iff.mp made).2.2
  rw [back] at value
  exact ⟨versions, made, value⟩

theorem readVersions_of_mapM {vs : List Value} {ns : List Int}
    (h : vs.mapM Record.readInteger = .ok ns) : readVersions (.array vs) = toVersions ns := by
  have read : Checked.all (Record.readItems Record.readInteger 0 vs) = .ok ns :=
    Record.all_readItems_iff.mpr h
  rw [readVersions]
  simp only [read]

/-- **A list gives versions if its items are positive integers, and each is kept where it came
first.** -/
theorem readVersions_eq_ok_iff {vs : List Value} {versions : ProtocolVersions} :
    readVersions (.array vs) = .ok versions ↔
      ∃ ns, vs.mapM Record.readInteger = .ok ns ∧ ns ≠ [] ∧ (∀ n ∈ ns, 1 ≤ n) ∧
        versions.val = distinct (ns.map Int.toNat) := by
  constructor
  · intro h
    cases read : Checked.all (Record.readItems Record.readInteger 0 vs) with
    | ok ns =>
      have integers := Record.all_readItems_iff.mp read
      rw [readVersions_of_mapM integers] at h
      exact ⟨ns, integers, toVersions_eq_ok_iff.mp h⟩
    | error issues =>
      rw [readVersions] at h
      simp only [read] at h
      cases h
  · rintro ⟨ns, integers, positive⟩
    rw [readVersions_of_mapM integers]
    exact toVersions_eq_ok_iff.mpr positive

theorem ofDraft_eq_ok_iff {service : Given Identity} {versions : Value} {d : NotaryDeclaration} :
    ofDraft ⟨some service, some versions⟩ = .ok d ↔
      readIdentity service = .ok d.service ∧ readVersions versions = .ok d.versions := by
  refine ⟨ofDraft_eq_ok, ?_⟩
  rintro ⟨identity, numbers⟩
  rw [ofDraft, Record.required_ok identity, Record.required_ok numbers]
  rfl

end NotaryDeclaration

namespace NetworkConfig

open NotaryDeclaration (readIdentity)

/-! ## Members -/

theorem mapM_readIdentity_of_parse {given read : List (Given Identity)}
    (h : given.mapM parseText = .ok read) : read.mapM readIdentity = given.mapM readIdentity := by
  induction given generalizing read with
  | nil =>
    cases h
    rfl
  | cons g given ih =>
    rw [List.mapM_cons] at h
    obtain ⟨r, first, h⟩ := bind_eq_ok.mp h
    obtain ⟨rest, later, same⟩ := bind_eq_ok.mp h
    cases same
    rw [List.mapM_cons, List.mapM_cons, readIdentity_of_parseText first, ih later]

/-- What is read as an identity is also read if its text is read first. -/
theorem exists_parseText {g : Given Identity} {i : Identity} (h : readIdentity g = .ok i) :
    ∃ read, parseText g = .ok read := by
  cases g with
  | made i => exact ⟨_, rfl⟩
  | raw value =>
    cases value with
    | string s =>
      cases s with
      | torn points => exact ⟨_, rfl⟩
      | text s =>
        refine ⟨.made i, ?_⟩
        rw [parseText, mapError_eq_ok.mp h]
        rfl
    | _ => exact ⟨_, rfl⟩

theorem exists_mapM_parseText {given : List (Given Identity)} {listed : List Identity}
    (h : given.mapM readIdentity = .ok listed) : ∃ read, given.mapM parseText = .ok read :=
  exists_mapM_ok fun g hg => by
    obtain ⟨i, identity⟩ := ok_of_mapM h g hg
    exact exists_parseText identity

/-- **Members are read one by one, and each is kept where it came first.** -/
theorem readMembers_eq_ok_iff {given : List (Given Identity)} {members : Members} :
    readMembers (.items given) = .ok members ↔
      ∃ listed, given.mapM readIdentity = .ok listed ∧ members.val = distinct listed := by
  rw [readMembers]
  constructor
  · intro h
    split at h
    · cases h
    · rename_i read parsed
      cases all : Checked.all (Record.readItems readIdentity 0 read) with
      | error issues =>
        rw [all] at h
        cases h
      | ok listed =>
        rw [all] at h
        cases h
        exact ⟨listed, (mapM_readIdentity_of_parse parsed).symm.trans
          (Record.all_readItems_iff.mp all), rfl⟩
  · rintro ⟨listed, identities, same⟩
    obtain ⟨read, parsed⟩ := exists_mapM_parseText identities
    have all : Checked.all (Record.readItems readIdentity 0 read) = .ok listed :=
      Record.all_readItems_iff.mpr ((mapM_readIdentity_of_parse parsed).trans identities)
    simp only [parsed, all]
    exact congrArg Except.ok (Subtype.ext same.symm)

/-! ## Notaries -/

theorem checkServices_eq {notaries : List NotaryDeclaration}
    (nodup : (notaries.map (·.service)).Nodup) :
    checkServices notaries = .ok ⟨notaries, nodup⟩ := by
  have distinct : firstRepeat? [] (notaries.map (·.service)) = none :=
    firstRepeat?_eq_none_iff.mpr ⟨nodup, fun _ _ => List.not_mem_nil⟩
  unfold checkServices
  split
  · rfl
  · rename_i s repeated
    rw [distinct] at repeated
    cases repeated

theorem checkServices_eq_ok_iff {ds : List NotaryDeclaration} {notaries : Notaries} :
    checkServices ds = .ok notaries ↔ ds = notaries.val := by
  constructor
  · intro h
    unfold checkServices at h
    split at h
    · cases h
      rfl
    · cases h
  · rintro rfl
    exact checkServices_eq notaries.property

theorem readNotaries_eq_ok_iff {given : List (Given NotaryDeclaration)} {notaries : Notaries} :
    readNotaries (.items given) = .ok notaries ↔
      given.mapM readDeclaration = .ok notaries.val := by
  rw [readNotaries]
  cases read : Checked.all (Record.readItems readDeclaration 0 given) with
  | ok ds => simp [Record.all_readItems_iff.mp read, checkServices_eq_ok_iff]
  | error issues =>
    refine ⟨nofun, fun declared => ?_⟩
    cases (Record.all_readItems_iff.mpr declared).symm.trans read

/-! ## Configurations -/

theorem readNonempty_eq (text : NonemptyText) : Record.readNonempty (.string text.val) = .ok text :=
  dif_pos text.property

theorem assemble_eq_iff {members : Members} {notaries : Notaries} {schemeName : NonemptyText}
    {c : NetworkConfig} : assemble members notaries schemeName = c ↔
      members.val = c.members ∧ notaries.val = c.notaries ∧ schemeName = c.schemeName := by
  cases c
  simp [assemble]

theorem ofDraft_eq_ok_iff {draft : Draft} {c : NetworkConfig} :
    ofDraft draft = .ok c ↔
      readMembers (draft.members.getD (.items [])) = .ok c.membership ∧
        readNotaries (draft.notaries.getD (.items [])) = .ok c.declared ∧
        Record.readNonempty (draft.schemeName.getD (.string defaultSchemeName.val)) =
          .ok c.schemeName := by
  constructor
  · intro h
    obtain ⟨_, name, two, third, rfl⟩ := Checked.both_eq_ok h
    obtain ⟨_, notaries, one, second, rfl⟩ := Checked.both_eq_ok two
    obtain ⟨_, members, start, first, rfl⟩ := Checked.both_eq_ok one
    cases start
    exact ⟨Checked.within_eq_ok first, Checked.within_eq_ok second, Checked.within_eq_ok third⟩
  · rintro ⟨first, second, third⟩
    simp only [ofDraft, first, second, third]
    rfl

end NetworkConfig

end NotaryNetwork
