import NotaryNetwork.Proofs.Build.Resolution
import NotaryNetwork.Proofs.Build.Seeded

/-!
# When building settles

Building is meant to end in a network or in an error of the family, and to leave the source alone
where it fails. From a seeded stream and with the standard naming it does so unless a service passes
all checks with a common name of at most 51 characters but more than 64 bytes, or a version has more
digits than are written (`build_settles_iff`). The checks count characters; the text of such a
service is only asked for when an overlap is told or when parameters are encoded, and by then keys
have been made.
-/

namespace NotaryNetwork

open NotaryNetwork.Random (SeededStream)

/-- Building ends in a network or in an error of the family, and where it fails the source is as
before. -/
def Settles {σ : Type} (b : Builder σ) (c : NetworkConfig) (source : σ) : Prop :=
  ((∃ n, (b.build c source).1.outcome = .ok n) ∨
    ∃ e, (b.build c source).1.outcome = .error (.build e)) ∧
  ∀ f, (b.build c source).1.outcome = .error f → (b.build c source).2 = source

/-- What is asked for is not there: the text of a service that is a member, or, if no service is a
member, the text of any service or of any version. -/
def Unspelled (c : NetworkConfig) : Prop :=
  (∃ s ∈ c.services, s.Oversized ∧ s ∈ c.members) ∨
    (∀ m ∈ c.members, m ∉ c.services) ∧ ∃ d ∈ c.notaries, d.service.Oversized ∨ ¬ d.Writable

/-- A configuration passes the checks of its names and of its scheme, and then something is asked for
that is not there. -/
structure Stumbles (c : NetworkConfig) : Prop where
  members : ∀ m ∈ c.members, ¬ m.Marked
  services : ∀ s ∈ c.services, ¬ s.Marked ∧ ¬ s.Crowded
  scheme : c.schemeName.val ∈ SchemeRegistry.platform.codeNames
  unspelled : Unspelled c

namespace Builder

variable {σ : Type} {b : Builder σ} {c : NetworkConfig} {source : σ}

theorem settles_of_refusal {e : BuildError} (h : (b.plan c).outcome = .error (.build e)) :
    Settles b c source := by
  unfold Settles
  rw [build_of_refusal h]
  exact ⟨.inr ⟨e, rfl⟩, fun _ _ => rfl⟩

theorem settles_of_ok {n : Network} (h : (b.build c source).1.outcome = .ok n) :
    Settles b c source := by
  unfold Settles
  rw [h]
  exact ⟨.inl ⟨n, rfl⟩, fun f fails => nomatch fails⟩

theorem not_settles_of_failure {f : Failure} (h : (b.build c source).1.outcome = .error f)
    (other : ∀ e, f ≠ .build e) : ¬ Settles b c source := by
  unfold Settles
  rw [h]
  rintro ⟨⟨n, network⟩ | ⟨e, family⟩, -⟩
  · cases network
  · exact other e (Except.error.inj family)

/-! ## Plans with the standard naming -/

/-- Names that do not pass the checks, or a scheme that is not there, are refused. -/
theorem plan_refused (standard : b.naming = none)
    (h : ¬ ((∀ m ∈ c.members, ¬ m.Marked) ∧ (∀ s ∈ c.services, ¬ s.Marked ∧ ¬ s.Crowded) ∧
      c.schemeName.val ∈ b.registry.codeNames)) :
    ∃ e, (b.plan c).outcome = .error (.build e) := by
  rw [outcome_plan]
  cases members : c.members.forM IdentityValidator.standard.validate with
  | error e => exact ⟨e, rfl⟩
  | ok u =>
    cases services : c.services.forM b.checkService with
    | error e => exact ⟨e, rfl⟩
    | ok u =>
      cases scheme : b.registry.resolve c.schemeName.val with
      | error e => exact ⟨e, rfl⟩
      | ok s =>
        refine absurd ⟨fun m hm => ?_, fun s hs => ?_, ?_⟩ h
        · exact IdentityValidator.validate_eq_ok.mp (forM_eq_ok.mp members m hm)
        · exact (checkService_eq_ok standard).mp (forM_eq_ok.mp services s hs)
        · exact SchemeRegistry.exists_find?_iff.mp ⟨s, SchemeRegistry.resolve_eq_ok.mp scheme⟩

/-- With names that pass the checks and a scheme that is there, only a service among the members
stops a plan. -/
theorem outcome_plan_of_checked (standard : b.naming = none)
    (members : ∀ m ∈ c.members, ¬ m.Marked) (services : ∀ s ∈ c.services, ¬ s.Marked ∧ ¬ s.Crowded)
    {scheme : KeyScheme} (known : b.registry.find? c.schemeName.val = some scheme) :
    ∃ workers, Topology.Names WorkerNaming.standard c.services workers ∧
      (b.plan c).outcome =
        (Topology.checkMembers c.members workers >>= fun _ => .ok ⟨scheme, workers⟩) := by
  obtain ⟨workers, named⟩ := Topology.exists_standardWorkers fun s hs => (services s hs).2
  have names := Topology.nameWorkers_eq_ok c.services_nodup named
  have distinct :=
    Topology.checkShared_eq_ok.mpr (names.nodup_values WorkerNaming.standard_injective)
  have memberChecks :=
    forM_eq_ok.mpr fun m hm => IdentityValidator.validate_eq_ok.mpr (members m hm)
  have serviceChecks := forM_eq_ok.mpr fun s hs => (checkService_eq_ok standard).mpr (services s hs)
  have last : (Topology.checkShared workers >>= fun _ =>
      (.ok ⟨scheme, workers⟩ : Except Failure Plan)) = .ok ⟨scheme, workers⟩ := by
    rw [distinct]
    rfl
  refine ⟨workers, names, ?_⟩
  rw [outcome_plan, memberChecks, serviceChecks, SchemeRegistry.resolve_eq_ok.mpr known,
    workerNaming_of_none standard, named]
  exact congrArg (Topology.checkMembers c.members workers >>= ·) (funext fun _ => last)

/-- Where services are among the members, the overlap is told if all these services have texts. -/
theorem outcome_checkMembers {members services : List Identity} {workers : Table Identity Identity}
    (names : Topology.Names WorkerNaming.standard services workers)
    (unmarked : ∀ m ∈ members, ¬ m.Marked) :
    Topology.checkMembers members workers = .ok () ∧ (∀ m ∈ members, m ∉ services) ∨
    (∃ m ∈ members, m ∈ services) ∧
      ((∃ e, Topology.checkMembers members workers = .error (.build e)) ∧
          (∀ m ∈ members, m ∈ services → m.Renderable) ∨
        (∃ fault, Topology.checkMembers members workers = .error (.unrenderable fault)) ∧
          ¬ ∀ m ∈ members, m ∈ services → m.Renderable) := by
  have both : ∀ i, i ∈ Topology.crossing WorkerNaming.standard members services ↔
      i ∈ members ∧ i ∈ services := fun i => by
    rw [Topology.crossing_standard unmarked names.nodup, List.mem_filter, decide_eq_true_eq,
      and_comm]
  unfold Topology.checkMembers
  rw [Topology.overlap_eq_crossing names]
  have failure :=
    Topology.overlapFailure_eq (Topology.crossing WorkerNaming.standard members services)
  simp only [both, and_imp] at failure
  cases crossing : Topology.crossing WorkerNaming.standard members services with
  | nil =>
    rw [crossing] at both
    exact .inl ⟨rfl, fun m hm hs => nomatch (both m).mpr ⟨hm, hs⟩⟩
  | cons i is =>
    rw [crossing] at failure both
    refine .inr ⟨⟨i, (both i).mp List.mem_cons_self⟩, ?_⟩
    rcases failure with ⟨⟨e, said⟩, texts⟩ | ⟨⟨fault, said⟩, textless⟩
    · exact .inl ⟨⟨e, congrArg Except.error said⟩, texts⟩
    · exact .inr ⟨⟨fault, congrArg Except.error said⟩, textless⟩

/-! ## Seeded streams -/

variable {env : Environment} {stream : SeededStream}

theorem spelled_iff {d : NotaryDeclaration} : d.Spelled ↔ ¬ (d.service.Oversized ∨ ¬ d.Writable) := by
  rw [not_or, not_not]
  exact and_congr_left' d.service.renderable_iff

/-- Where no service is a member, it is the encoding that asks for texts. -/
theorem unspelled_of_apart (apart : ∀ m ∈ c.members, m ∉ c.services) :
    Unspelled c ↔ ¬ ∀ d ∈ c.notaries, d.Spelled := by
  simp only [spelled_iff, not_forall, not_not, exists_prop]
  constructor
  · rintro (⟨s, hs, -, member⟩ | ⟨-, unspelled⟩)
    · exact absurd hs (apart s member)
    · exact unspelled
  · exact fun unspelled => .inr ⟨apart, unspelled⟩

/-- Services that are members are told before any key is made. -/
theorem unspelled_of_overlap (overlap : ∃ m ∈ c.members, m ∈ c.services) :
    Unspelled c ↔ ¬ ∀ m ∈ c.members, m ∈ c.services → m.Renderable := by
  obtain ⟨m, hm, service⟩ := overlap
  constructor
  · rintro (⟨s, hs, large, member⟩ | ⟨apart, -⟩) texts
    · exact s.renderable_iff.mp (texts s member hs) large
    · exact apart m hm service
  · intro some_textless
    refine Classical.byContradiction fun spelled => some_textless fun s member hs => ?_
    exact s.renderable_iff.mpr fun large => spelled (.inl ⟨s, hs, large, member⟩)

/-- With names that pass the checks, what is asked for decides. -/
theorem settles_of_checked (members : ∀ m ∈ c.members, ¬ m.Marked)
    (services : ∀ s ∈ c.services, ¬ s.Marked ∧ ¬ s.Crowded)
    (known : c.schemeName.val ∈ SchemeRegistry.platform.codeNames)
    (drawn : c.schemeName.val ≠ KeyScheme.rsa.codeName) :
    Settles env.builder c (.seeded stream) ↔ ¬ Unspelled c := by
  obtain ⟨scheme, found⟩ := SchemeRegistry.exists_find?_iff.mpr known
  have draws : Drawn scheme := drawn_of_find? found drawn
  obtain ⟨workers, names, outcome⟩ :=
    outcome_plan_of_checked (b := env.builder) rfl members services found
  rcases outcome_checkMembers names members with ⟨passes, apart⟩ | ⟨overlapping, told⟩
  · -- The plan stands, and keys are made before the encoding can fail.
    rw [passes] at outcome
    rw [unspelled_of_apart apart, Classical.not_not]
    rcases build_of_plan outcome draws stream with
      ⟨⟨n, built⟩, spelled⟩ | ⟨⟨f, fails, other⟩, unspelled⟩
    · exact iff_of_true (settles_of_ok built) spelled
    · exact iff_of_false (not_settles_of_failure fails other) unspelled
  · -- There is no plan, so the source is not asked, whichever way the overlap is told.
    rw [unspelled_of_overlap overlapping, Classical.not_not]
    rcases told with ⟨⟨e, fails⟩, texts⟩ | ⟨⟨fault, fails⟩, textless⟩
    · rw [fails] at outcome
      exact iff_of_true (settles_of_refusal outcome) texts
    · rw [fails] at outcome
      refine iff_of_false ?_ textless
      exact not_settles_of_failure (congrArg (·.1.outcome) (build_of_refusal outcome)) nofun

/-- **From a seeded stream, and with a scheme other than RSA, building settles unless it stumbles
over a service without a text or a version that is not written.** -/
theorem build_settles_iff (env : Environment) (c : NetworkConfig) (stream : SeededStream)
    (drawn : c.schemeName.val ≠ KeyScheme.rsa.codeName) :
    Settles env.builder c (.seeded stream) ↔ ¬ Stumbles c := by
  by_cases checked : (∀ m ∈ c.members, ¬ m.Marked) ∧ (∀ s ∈ c.services, ¬ s.Marked ∧ ¬ s.Crowded) ∧
      c.schemeName.val ∈ SchemeRegistry.platform.codeNames
  · obtain ⟨members, services, known⟩ := checked
    rw [settles_of_checked members services known drawn]
    exact not_congr ⟨fun unspelled => ⟨members, services, known, unspelled⟩, fun h => h.unspelled⟩
  · obtain ⟨e, refused⟩ := plan_refused (b := env.builder) rfl checked
    refine iff_of_true (settles_of_refusal refused) fun h => ?_
    exact checked ⟨h.members, h.services, h.scheme⟩

/-- A notary whose common name has 33 characters of two bytes each. -/
def accented : Identity :=
  ⟨some ⟨"ééééééééééééééééééééééééééééééééé", by decide⟩, none, ⟨"Banque", by decide⟩,
    ⟨"Genève", by decide⟩, none, ⟨"CH", by decide⟩⟩

/-- A network of this notary alone, with keys of a given scheme. -/
def accentedNetwork (schemeName : NonemptyText) : NetworkConfig :=
  ⟨[], [⟨accented, ⟨[4], by decide⟩⟩], schemeName, by decide, by decide⟩

/-- A system whose bytes are all zero. -/
def zeroed : Environment := ⟨fun _ => 0, fun _ => 0⟩

/-- A scheme that is not there is refused before any text is asked for. -/
theorem build_settles_iff_unknown :
    (accentedNetwork ⟨"CORDA.NONE", by decide⟩).schemeName.val ≠ KeyScheme.rsa.codeName ∧
      Settles zeroed.builder (accentedNetwork ⟨"CORDA.NONE", by decide⟩)
        (.seeded (.start (.number 1))) :=
  ⟨by decide, (build_settles_iff _ _ _ (by decide)).mpr fun h => absurd h.scheme (by decide)⟩

/-- The number of bytes that a seeded stream has given. -/
def drawnBytes : Random.Choice → Nat
  | .seeded stream => stream.bytesDrawn
  | _ => 0

/-- The accented notary passes all checks, and its failure comes after a key has been made. -/
theorem not_settles_accented :
    (accentedNetwork ⟨"CORDA.EDDSA.ED25519", by decide⟩).schemeName.val ≠ KeyScheme.rsa.codeName ∧
      ¬ Settles zeroed.builder (accentedNetwork ⟨"CORDA.EDDSA.ED25519", by decide⟩)
        (.seeded (.start (.number 1))) ∧
      drawnBytes (zeroed.builder.build (accentedNetwork ⟨"CORDA.EDDSA.ED25519", by decide⟩)
        (.seeded (.start (.number 1)))).2 = 32 := by
  have checked : ∀ s ∈ (accentedNetwork ⟨"CORDA.EDDSA.ED25519", by decide⟩).services,
      ¬ s.Marked ∧ ¬ s.Crowded := by
    intro s hs
    obtain rfl : s = accented := List.mem_singleton.mp hs
    refine (checkService_eq_ok (b := zeroed.builder) rfl).mp ?_
    rfl
  have memberless : ∀ m, m ∉ (accentedNetwork ⟨"CORDA.EDDSA.ED25519", by decide⟩).members :=
    fun m => List.not_mem_nil
  have large : accented.Oversized := ⟨_, rfl, by decide⟩
  refine ⟨by decide, fun settles => ?_, by decide +kernel⟩
  refine (settles_of_checked (fun m hm => absurd hm (memberless m)) checked
    (by decide) (by decide)).mp settles ?_
  exact .inr ⟨fun m hm => absurd hm (memberless m), _, List.mem_singleton_self _, .inl large⟩

end Builder

end NotaryNetwork
