import NotaryNetwork.Proofs.Build.Checks

/-!
# Resolutions of checked configurations

What the marker and the room for it are for. Where the members and the services of a configuration
pass the checks of their names, the standard naming gives every service a worker that is marked, and
no name that has been checked is marked. So a resolution stops only at services that are members
themselves (`resolve_checked`), and one that succeeds leaves members, services and workers apart
(`Separate`).
-/

namespace NotaryNetwork.Topology

/-! ## Workers of the standard naming -/

/-- Services that leave room for the marker all get workers. -/
theorem exists_standardWorkers {ds : List NotaryDeclaration}
    (roomy : ∀ s ∈ ds.map (·.service), ¬ s.Crowded) :
    ∃ workers, nameWorkers WorkerNaming.standard .empty ds = .ok workers :=
  exists_nameWorkers fun d hd =>
    WorkerNaming.standard_of_roomy (roomy d.service (List.mem_map.mpr ⟨d, hd, rfl⟩))

variable {services members : List Identity} {workers : Table Identity Identity}

theorem Names.marked (names : Names WorkerNaming.standard services workers) :
    ∀ w ∈ workers.values, w.Marked := by
  intro w hw
  obtain ⟨s, -, named⟩ := names.mem_values_iff.mp hw
  exact WorkerNaming.marked_of_standard named

/-- No worker is an unmarked member. -/
theorem filter_worker (unmarked : ∀ m ∈ members, ¬ m.Marked) (s : Identity) :
    (WorkerNaming.standard s).toOption.toList.filter (· ∈ members) = [] := by
  cases named : WorkerNaming.standard s with
  | error e => rfl
  | ok w =>
    have absent : w ∉ members := by
      intro member
      exact unmarked w member (WorkerNaming.marked_of_standard named)
    simp [Except.toOption, absent]

/-- **Among unmarked members the overlap is that of the services, in the order of their
declarations.** -/
theorem crossing_standard (unmarked : ∀ m ∈ members, ¬ m.Marked) (nodup : services.Nodup) :
    crossing WorkerNaming.standard members services = services.filter (· ∈ members) := by
  have met : (services.flatMap fun s => s :: (WorkerNaming.standard s).toOption.toList).filter
      (· ∈ members) = services.filter (· ∈ members) := by
    clear nodup
    induction services with
    | nil => rfl
    | cons s ss ih =>
      rw [List.flatMap_cons, List.cons_append, List.filter_cons, List.filter_append,
        filter_worker unmarked, ih, List.filter_cons, List.nil_append]
  rw [crossing, met, distinct_of_nodup (nodup.filter _)]

/-! ## Resolutions -/

/-- Every service has a worker of its own, and members, services and workers are apart. -/
structure Separate (c : NetworkConfig) (workers : Table Identity Identity) : Prop where
  services : workers.keys = c.services
  named : ∀ entry ∈ workers.entries, WorkerNaming.standard entry.1 = .ok entry.2
  distinct : workers.values.Nodup
  members_services : ∀ m ∈ c.members, m ∉ c.services
  members_workers : ∀ m ∈ c.members, m ∉ workers.values
  services_workers : ∀ s ∈ c.services, s ∉ workers.values
  marked : ∀ w ∈ workers.values, w.Marked

/-- Where every service has room for the marker, only the members are left to look at. -/
theorem outcome_resolve_standard {c : NetworkConfig} (roomy : ∀ s ∈ c.services, ¬ s.Crowded) :
    ∃ workers, Names WorkerNaming.standard c.services workers ∧
      (resolve WorkerNaming.standard c.members c.notaries).outcome =
        (checkMembers c.members workers >>= fun _ => .ok workers) := by
  obtain ⟨workers, named⟩ := exists_standardWorkers roomy
  have names : Names WorkerNaming.standard c.services workers :=
    nameWorkers_eq_ok c.services_nodup named
  have last : (checkShared workers >>= fun _ => (.ok workers : Except Failure _)) =
      .ok workers := by
    rw [checkShared_eq_ok.mpr (names.nodup_values WorkerNaming.standard_injective)]
    rfl
  refine ⟨workers, names, ?_⟩
  rw [outcome_resolve, named]
  exact congrArg (checkMembers c.members workers >>= ·) (funext fun _ => last)

/-- **Where the names of a configuration pass the checks, a resolution with the standard naming
fails if and only if a service is a member. The error names just the services that are members, in
the order of their declarations; otherwise members, services and workers are apart.** -/
theorem resolve_checked {c : NetworkConfig}
    (members : (IdentityValidator.standard.validateAll c.members).outcome = .ok ())
    (services : (IdentityValidator.standard.validateServices c.services).outcome = .ok ())
    (texts : ∀ s ∈ c.services, s.Renderable) :
    ((∃ f, (resolve WorkerNaming.standard c.members c.notaries).outcome = .error f) ↔
        ∃ s ∈ c.services, s ∈ c.members) ∧
      (∀ f, (resolve WorkerNaming.standard c.members c.notaries).outcome = .error f →
        ∃ message, BuildError.ofOverlap ((c.services.filter (· ∈ c.members)).map .identity) =
            .ok (.overlap ((c.services.filter (· ∈ c.members)).map .identity) message) ∧
          f = .build (.overlap ((c.services.filter (· ∈ c.members)).map .identity) message)) ∧
      ∀ workers, (resolve WorkerNaming.standard c.members c.notaries).outcome = .ok workers →
        Separate c workers := by
  have unmarked := IdentityValidator.validateAll_eq_ok.mp members
  have checked := IdentityValidator.validateServices_eq_ok.mp services
  obtain ⟨workers, names, outcome⟩ := outcome_resolve_standard fun s hs => (checked s hs).2
  rw [outcome]
  cases check : checkMembers c.members workers with
  | error f =>
    obtain ⟨met, rfl⟩ := (checkMembers_eq_error names).mp check
    rw [crossing_standard unmarked names.nodup] at met ⊢
    obtain ⟨s, shared⟩ := List.exists_mem_of_ne_nil _ met
    obtain ⟨service, member⟩ := List.mem_filter.mp shared
    refine ⟨iff_of_true ⟨_, rfl⟩ ⟨s, service, of_decide_eq_true member⟩, ?_, ?_⟩
    · intro f same
      cases same
      apply overlapFailure_of_texts
      intro i hi
      exact texts i (List.mem_filter.mp hi).1
    · intro table same
      cases same
  | ok u =>
    have met := (checkMembers_eq_ok names).mp check
    rw [crossing_standard unmarked names.nodup, List.filter_eq_nil_iff] at met
    simp only [decide_eq_true_eq] at met
    refine ⟨iff_of_false ?_ ?_, ?_, ?_⟩
    · rintro ⟨f, same⟩
      cases same
    · rintro ⟨s, service, member⟩
      exact met s service member
    · intro f same
      cases same
    · intro table same
      cases same
      exact {
        services := names.keys
        named := names.named
        distinct := names.nodup_values WorkerNaming.standard_injective
        members_services := fun m hm hs => met m hs hm
        members_workers := fun m hm hw => unmarked m hm (names.marked m hw)
        services_workers := fun s hs hw => (checked s hs).1 (names.marked s hw)
        marked := names.marked }

/-- A harbour without a common name. -/
def harbour : Identity :=
  ⟨none, none, ⟨"Hamn", by decide⟩, ⟨"Malmö", by decide⟩, none, ⟨"SE", by decide⟩⟩

/-- A lighthouse whose common name leaves just enough room for the marker. -/
def lighthouse : Identity :=
  ⟨some ⟨"012345678901234567890123456789012345678901234567890", by decide⟩, none,
    ⟨"Fyr", by decide⟩, ⟨"Lund", by decide⟩, none, ⟨"SE", by decide⟩⟩

/-- A coast of the two, with the harbour as a member too. -/
def coast : NetworkConfig :=
  ⟨[harbour], [⟨lighthouse, ⟨[3], by decide⟩⟩, ⟨harbour, ⟨[3, 5], by decide⟩⟩],
    ⟨"CORDA.ECDSA.SECP256K1", by decide⟩, by decide, by decide⟩

theorem resolve_checked_coast :
    (IdentityValidator.standard.validateAll coast.members).outcome = .ok () ∧
      (IdentityValidator.standard.validateServices coast.services).outcome = .ok () ∧
      (∀ s ∈ coast.services, s.Renderable) ∧
      (∃ f, (resolve WorkerNaming.standard coast.members coast.notaries).outcome = .error f) ∧
      ∀ f, (resolve WorkerNaming.standard coast.members coast.notaries).outcome = .error f →
        ∃ message, f = .build (.overlap [.identity harbour] message) := by
  have members : (IdentityValidator.standard.validateAll coast.members).outcome = .ok () := rfl
  have services : (IdentityValidator.standard.validateServices coast.services).outcome = .ok () :=
    rfl
  have texts : ∀ s ∈ coast.services, s.Renderable := by
    intro s hs
    rcases List.mem_cons.mp hs with rfl | hs
    · exact ⟨_, rfl⟩
    · obtain rfl := List.mem_singleton.mp hs
      exact ⟨_, rfl⟩
  obtain ⟨fails, told, -⟩ := resolve_checked members services texts
  refine ⟨members, services, texts, fails.mpr ⟨harbour, by decide, by decide⟩, fun f error => ?_⟩
  obtain ⟨message, -, e⟩ := told f error
  exact ⟨message, e⟩

end NotaryNetwork.Topology
