import NotaryNetwork.Build.Builder
import NotaryNetwork.Proofs.Build.Naming
import NotaryNetwork.Proofs.Build.Topology
import NotaryNetwork.Proofs.SchemeRegistry

/-!
# The checks before keys are made

Six checks stand before the first key. Each is a relation to the errors that it fails with: a marked
member, a refused service, an unknown scheme, a service without a worker, a member that is a service
or a worker, and two services with one worker. `FirstFailure` takes the error of the first check
that fails, and a plan fails with exactly these errors (`plan_refuses`). A plan that is made meets
all checks (`plan_eq_ok`).
-/

namespace NotaryNetwork

open Identity (Renderable)

/-! ## Failing checks -/

/-- A check, by the errors that it fails with. -/
abbrev Check := BuildError → Prop

/-- The error of the first item that has a fault. -/
def FirstOf {α : Type} (fault : α → Check) (xs : List α) : Check := fun e =>
  ∃ x, IsFirst (fun y => ∃ e, fault y e) xs x ∧ fault x e

/-- The error of the first check that fails. -/
def FirstFailure : List Check → Check
  | [], _ => False
  | check :: rest, e => check e ∨ (∀ e', ¬ check e') ∧ FirstFailure rest e

/-- A result that fails with exactly the errors of a check. -/
def Refuses {α : Type} (x : Except Failure α) (check : Check) : Prop :=
  ∀ f, x = .error f ↔ ∃ e, check e ∧ f = .build e

namespace Refuses

variable {α β : Type} {x : Except Failure α} {check : Check}

theorem of_ok {a : α} : Refuses (.ok a) (FirstFailure []) := fun f => by simp [FirstFailure]

theorem not_of_ok (h : Refuses x check) {a : α} (ok : x = .ok a) (e : BuildError) : ¬ check e := by
  intro fails
  have := (h (.build e)).mpr ⟨e, fails, rfl⟩
  rw [ok] at this
  cases this

theorem exists_ok (h : Refuses x check) (passes : ∀ e, ¬ check e) : ∃ a, x = .ok a := by
  cases result : x with
  | ok a => exact ⟨a, rfl⟩
  | error f =>
    obtain ⟨e, fails, -⟩ := (h f).mp result
    exact absurd fails (passes e)

/-- A check that comes before others decides if it fails, and else they do. -/
theorem bind (h : Refuses x check) {f : α → Except Failure β} {rest : List Check}
    (next : ∀ a, x = .ok a → Refuses (f a) (FirstFailure rest)) :
    Refuses (x >>= f) (FirstFailure (check :: rest)) := by
  intro failure
  cases result : x with
  | error failure' =>
    obtain ⟨e', fails, rfl⟩ := (h failure').mp result
    constructor
    · intro same
      cases same
      exact ⟨e', .inl fails, rfl⟩
    · rintro ⟨e, first | ⟨passes, -⟩, rfl⟩
      · have := (h (.build e)).mpr ⟨e, first, rfl⟩
        rw [result] at this
        cases this
        rfl
      · exact absurd fails (passes e')
  | ok a =>
    have passes := h.not_of_ok result
    have rest := next a result failure
    constructor
    · intro same
      obtain ⟨e, fails, rfl⟩ := rest.mp same
      exact ⟨e, .inr ⟨passes, fails⟩, rfl⟩
    · rintro ⟨e, first | ⟨-, fails⟩, rfl⟩
      · exact absurd first (passes e)
      · exact rest.mpr ⟨e, fails, rfl⟩

/-- A traversal fails with the error of the first item that has a fault. -/
theorem forM {f : α → Except BuildError Unit} {fault : α → Check}
    (h : ∀ y e, f y = .error e ↔ fault y e) (xs : List α) :
    Refuses ((xs.forM f).mapError .build) (FirstOf fault xs) := by
  have first : ∀ y, f y ≠ .ok () ↔ ∃ e, fault y e := by
    intro y
    simp only [← h]
    cases f y <;> simp
  intro failure
  rw [mapError_eq_error]
  constructor
  · rintro ⟨e, fails, rfl⟩
    obtain ⟨y, hy, he⟩ := forM_eq_error.mp fails
    exact ⟨e, ⟨y, (IsFirst.congr fun z _ => first z).mp hy, (h y e).mp he⟩, rfl⟩
  · rintro ⟨e, ⟨y, hy, he⟩, rfl⟩
    exact ⟨e, forM_eq_error.mpr ⟨y, (IsFirst.congr fun z _ => first z).mpr hy, (h y e).mpr he⟩, rfl⟩

end Refuses

/-! ## The checks -/

/-- How a service is refused whose worker cannot be named. -/
def NamingFault (naming : WorkerNaming) (s : Identity) : Check := fun e =>
  ∃ issues text, naming s = .error (.refused issues) ∧ s.render = .ok text ∧
    e = .invalidIdentity ((s.get? .commonName).getD "") workerMarker
      (.underivable text ⟨Identity.title, issues⟩)

/-- How members are refused that are services or workers. -/
def OverlapFault (naming : WorkerNaming) (members services : List Identity) : Check := fun e =>
  Topology.crossing naming members services ≠ [] ∧
    BuildError.ofOverlap ((Topology.crossing naming members services).map .identity) = .ok e

/-- How the first service is refused whose worker a service before it has. -/
def SharedFault (naming : WorkerNaming) (services : List Identity) : Check := fun e =>
  ∃ before second after first worker message, services = before ++ second :: after ∧
    (before.map naming).Nodup ∧ first ∈ before ∧ naming first = .ok worker ∧
    naming second = .ok worker ∧ Topology.sharedMessage first second worker = .ok message ∧
    e = .overlap [.identity first, .identity second] message

namespace Builder

variable {σ : Type} (b : Builder σ) (c : NetworkConfig)

/-- The naming of workers: the one given, or the standard one. -/
def workerNaming : WorkerNaming := b.naming.getD WorkerNaming.standard

/-- How a service is refused: for the marker in its common name and, with the standard naming, for
the length of its common name. -/
def ServiceFault (s : Identity) : Check := fun e =>
  MarkerFault s e ∨ b.naming = none ∧ RoomFault s e

/-- How a scheme is refused that is not registered. -/
def SchemeFault : Check := fun e =>
  c.schemeName.val ∉ b.registry.codeNames ∧
    e = .unknownScheme c.schemeName.val b.registry.codeNames

/-- The checks in their order. -/
def checks : List Check :=
  [FirstOf MarkerFault c.members, FirstOf b.ServiceFault c.services, b.SchemeFault c,
    FirstOf (NamingFault b.workerNaming) c.services,
    OverlapFault b.workerNaming c.members c.services, SharedFault b.workerNaming c.services]

/-- All identities that an error may show have a text: the members, the services, and the workers
that a given naming makes. Such a naming gives a worker or refuses the fields of its name. -/
structure Renders : Prop where
  members : ∀ m ∈ c.members, m.Renderable
  services : ∀ s ∈ c.services, s.Renderable
  naming : ∀ naming, b.naming = some naming → ∀ s ∈ c.services,
    (∃ w, naming s = .ok w ∧ w.Renderable) ∨ ∃ issues, naming s = .error (.refused issues)

end Builder

/-! ## What the steps of a plan refuse -/

namespace Refuses

theorem resolve (r : SchemeRegistry) (name : String) :
    Refuses ((r.resolve name).mapError .build)
      fun e => name ∉ r.codeNames ∧ e = .unknownScheme name r.codeNames := by
  intro f
  simp only [mapError_eq_error, SchemeRegistry.resolve_eq_error]
  simp [eq_comm]

variable {naming : WorkerNaming} {services : List Identity} {workers : Table Identity Identity}

theorem nameWorkers {ds : List NotaryDeclaration} (texts : ∀ d ∈ ds, d.service.Renderable)
    (total : ∀ d ∈ ds, ∀ e, naming d.service = .error e → ∃ issues, e = .refused issues) :
    Refuses (Topology.nameWorkers naming .empty ds)
      (FirstOf (NamingFault naming) (ds.map (·.service))) := by
  have fault : ∀ s ∈ ds.map (·.service), ∀ e, naming s = .error e →
      ∃ error, NamingFault naming s error ∧ Topology.namingFailure s e = .build error := by
    intro s hs e he
    obtain ⟨d, hd, rfl⟩ := List.mem_map.mp hs
    obtain ⟨issues, rfl⟩ := total d hd e he
    obtain ⟨text, ht⟩ := texts d hd
    refine ⟨_, ⟨issues, text, he, ht, rfl⟩, ?_⟩
    rw [Topology.namingFailure, ht]
  have same : ∀ s ∈ ds.map (·.service),
      ((∃ e, naming s = .error e) ↔ ∃ error, NamingFault naming s error) := by
    intro s hs
    constructor
    · rintro ⟨e, he⟩
      obtain ⟨error, hf, -⟩ := fault s hs e he
      exact ⟨error, hf⟩
    · rintro ⟨error, issues, text, he, -⟩
      exact ⟨_, he⟩
  intro f
  rw [Topology.nameWorkers_eq_error]
  constructor
  · rintro ⟨s, e, first, he, rfl⟩
    obtain ⟨error, hf, eq⟩ := fault s first.mem e he
    exact ⟨error, ⟨s, (IsFirst.congr same).mp first, hf⟩, eq⟩
  · rintro ⟨error, ⟨s, first, issues, text, he, ht, rfl⟩, rfl⟩
    refine ⟨s, _, (IsFirst.congr same).mpr first, he, ?_⟩
    rw [Topology.namingFailure, ht]

theorem checkMembers (h : Topology.Names naming services workers) {members : List Identity}
    (texts : ∀ m ∈ members, m.Renderable) :
    Refuses (Topology.checkMembers members workers) (OverlapFault naming members services) := by
  have said : ∃ e,
      BuildError.ofOverlap ((Topology.crossing naming members services).map .identity) = .ok e :=
    Topology.exists_ofOverlap_iff.mpr fun i hi => texts i (Topology.mem_crossing.mp hi).1
  obtain ⟨e, said⟩ := said
  intro f
  unfold Topology.checkMembers Topology.overlapFailure OverlapFault
  rw [Topology.overlap_eq_crossing h]
  cases names : Topology.crossing naming members services with
  | nil => simp
  | cons i is =>
    rw [names] at said
    simp only [said]
    simp [eq_comm]

theorem checkShared (h : Topology.Names naming services workers)
    (texts : ∀ s ∈ services, s.Renderable)
    (workerTexts : ∀ s ∈ services, ∀ t ∈ services, s ≠ t → ∀ w, naming s = .ok w →
      naming t = .ok w → w.Renderable) :
    Refuses (Topology.checkShared workers) (SharedFault naming services) := by
  intro f
  unfold Topology.checkShared
  cases found : Topology.sharedWorker? [] workers.entries with
  | none =>
    constructor
    · intro same
      cases same
    · rintro ⟨e, ⟨before, second, after, first, worker, message, all, distinct, hb, hf, hs, -⟩, -⟩
      have := h.shared_iff.mpr ⟨before, after, all, distinct, hb, hf, hs⟩
      rw [found] at this
      cases this
  | some found' =>
    obtain ⟨first, second, worker⟩ := found'
    obtain ⟨before, after, all, distinct, hb, hf, hs⟩ := h.shared_iff.mp found
    have mem_first : first ∈ services := all ▸ List.mem_append_left _ hb
    have mem_second : second ∈ services := all ▸ List.mem_append_right before List.mem_cons_self
    have apart : first ≠ second := by
      have nodup := h.nodup
      rw [all] at nodup
      exact (List.nodup_append.mp nodup).2.2 first hb second List.mem_cons_self
    have workerText := workerTexts first mem_first second mem_second apart worker hf hs
    obtain ⟨message, said⟩ :=
      Topology.exists_sharedMessage (texts first mem_first) (texts second mem_second) workerText
    have failure := Topology.sharedFailure_eq said
    constructor
    · intro same
      cases same
      refine ⟨_, ⟨before, second, after, first, worker, message, all, distinct, hb, hf, hs, said,
        rfl⟩, failure⟩
    · rintro ⟨e, ⟨before, second', after, first', worker', message', all, distinct, hb, hf, hs,
        said', rfl⟩, rfl⟩
      have same := h.shared_iff.mpr ⟨before, after, all, distinct, hb, hf, hs⟩
      rw [found] at same
      cases same
      rw [said] at said'
      cases said'
      exact congrArg Except.error failure

end Refuses

/-! ## Plans -/

namespace Builder

variable {σ : Type} {b : Builder σ} {c : NetworkConfig}

/-- The validation of one service. -/
def checkService (b : Builder σ) : Identity → Except BuildError Unit :=
  match b.naming with
  | none => IdentityValidator.standard.validateService
  | some _ => IdentityValidator.standard.validate

theorem outcome_lift {α : Type} (x : Traced BuildError α) :
    (lift x).outcome = x.outcome.mapError .build := rfl

theorem outcome_validateServices (b : Builder σ) (services : List Identity) :
    (b.validateServices services).outcome = services.forM b.checkService := by
  unfold validateServices checkService
  cases b.naming with
  | none => exact IdentityValidator.outcome_validateServices _ services
  | some naming => exact IdentityValidator.outcome_validateAll _ services

theorem outcome_resolveTraced (r : SchemeRegistry) (name : String) :
    (r.resolveTraced name).outcome = r.resolve name := by
  unfold SchemeRegistry.resolveTraced
  simp only [Traced.outcome_bind, Traced.outcome_ofExcept]
  cases r.resolve name <;> rfl

/-- The steps of a plan. -/
theorem outcome_plan (b : Builder σ) (c : NetworkConfig) : (b.plan c).outcome = (do
    (c.members.forM IdentityValidator.standard.validate).mapError Failure.build
    (c.services.forM b.checkService).mapError Failure.build
    let scheme ← (b.registry.resolve c.schemeName.val).mapError Failure.build
    let workers ← Topology.nameWorkers b.workerNaming .empty c.notaries
    Topology.checkMembers c.members workers
    Topology.checkShared workers
    return ⟨scheme, workers⟩) := by
  unfold plan
  simp only [Traced.outcome_bind, outcome_lift, IdentityValidator.outcome_validateAll,
    outcome_validateServices,
    outcome_resolveTraced, Topology.outcome_resolve, Traced.outcome_pure, bind_assoc, pure_bind]
  rfl

theorem checkService_eq_error (b : Builder σ) (s : Identity) (e : BuildError) :
    b.checkService s = .error e ↔ b.ServiceFault s e := by
  unfold checkService ServiceFault
  cases b.naming with
  | none => simp [IdentityValidator.validateService_eq_error]
  | some naming => simp [IdentityValidator.validate_eq_error]

theorem checkService_eq_ok (standard : b.naming = none) {s : Identity} :
    b.checkService s = .ok () ↔ ¬ s.Marked ∧ ¬ s.Crowded := by
  unfold checkService
  rw [standard]
  exact IdentityValidator.validateService_eq_ok

theorem workerNaming_of_none (h : b.naming = none) : b.workerNaming = WorkerNaming.standard := by
  rw [workerNaming, h]
  rfl

theorem workerNaming_of_some {naming : WorkerNaming} (h : b.naming = some naming) :
    b.workerNaming = naming := by
  rw [workerNaming, h]
  rfl

theorem Renders.refused (clear : b.Renders c) {s : Identity} (hs : s ∈ c.services)
    {e : Identity.ParseError} (h : b.workerNaming s = .error e) :
    ∃ issues, e = .refused issues := by
  cases given : b.naming with
  | none =>
    rw [workerNaming_of_none given] at h
    exact WorkerNaming.standard_eq_error h
  | some naming =>
    rw [workerNaming_of_some given] at h
    rcases clear.naming naming given s hs with ⟨w, hw, -⟩ | ⟨issues, refused⟩
    · rw [hw] at h
      cases h
    · rw [refused] at h
      cases h
      exact ⟨issues, rfl⟩

/-- A worker that two services share has a text: the standard naming makes no such worker. -/
theorem Renders.shared (clear : b.Renders c) {s t w : Identity} (hs : s ∈ c.services)
    (apart : s ≠ t) (named : b.workerNaming s = .ok w) (again : b.workerNaming t = .ok w) :
    w.Renderable := by
  cases given : b.naming with
  | none =>
    rw [workerNaming_of_none given] at named again
    exact absurd (WorkerNaming.standard_injective named again) apart
  | some naming =>
    rw [workerNaming_of_some given] at named
    rcases clear.naming naming given s hs with ⟨w', hw, text⟩ | ⟨issues, refused⟩
    · rw [hw] at named
      cases named
      exact text
    · rw [refused] at named
      cases named

/-- **A plan fails with the error of the first check that fails.** -/
theorem plan_refuses (clear : b.Renders c) :
    Refuses (b.plan c).outcome (FirstFailure (b.checks c)) := by
  have services : ∀ d ∈ c.notaries, d.service ∈ c.services := fun d hd =>
    List.mem_map.mpr ⟨d, hd, rfl⟩
  rw [outcome_plan]
  refine (Refuses.forM (fun _ _ => IdentityValidator.validate_eq_error) _).bind fun _ _ => ?_
  refine (Refuses.forM b.checkService_eq_error _).bind fun _ _ => ?_
  refine (Refuses.resolve _ _).bind fun scheme _ => ?_
  refine (Refuses.nameWorkers (fun d hd => clear.services _ (services d hd)) fun d hd e he =>
    clear.refused (services d hd) he).bind fun workers named => ?_
  have names := Topology.nameWorkers_eq_ok c.services_nodup named
  refine (Refuses.checkMembers names clear.members).bind fun _ _ => ?_
  refine (Refuses.checkShared names clear.services ?_).bind fun _ _ => Refuses.of_ok
  exact fun s hs t _ apart w hw hw' => clear.shared hs apart hw hw'

/-- A plan that meets the checks of a configuration. -/
structure Planned (b : Builder σ) (c : NetworkConfig) (plan : Plan) : Prop where
  members : ∀ m ∈ c.members, ¬ m.Marked
  services : ∀ s ∈ c.services, ∀ e, ¬ b.ServiceFault s e
  scheme : b.registry.find? c.schemeName.val = some plan.scheme
  workers : Topology.Names b.workerNaming c.services plan.workers
  apart : ∀ m ∈ c.members, m ∉ c.services ∧ m ∉ plan.workers.values
  distinct : plan.workers.values.Nodup

/-- **A plan that is made meets all checks.** -/
theorem plan_eq_ok {plan : Plan} (h : (b.plan c).outcome = .ok plan) : Planned b c plan := by
  rw [outcome_plan] at h
  obtain ⟨_, members, h⟩ := bind_eq_ok.mp h
  obtain ⟨_, services, h⟩ := bind_eq_ok.mp h
  obtain ⟨scheme, resolved, h⟩ := bind_eq_ok.mp h
  obtain ⟨workers, named, h⟩ := bind_eq_ok.mp h
  obtain ⟨_, apart, h⟩ := bind_eq_ok.mp h
  obtain ⟨_, distinct, h⟩ := bind_eq_ok.mp h
  cases h
  have names := Topology.nameWorkers_eq_ok c.services_nodup named
  have crossing := Topology.crossing_eq_nil_iff.mp ((Topology.checkMembers_eq_ok names).mp apart)
  refine ⟨?_, ?_, ?_, names, ?_, Topology.checkShared_eq_ok.mp distinct⟩
  · intro m hm
    exact IdentityValidator.validate_eq_ok.mp (forM_eq_ok.mp (mapError_eq_ok.mp members) m hm)
  · intro s hs e fault
    have passes := forM_eq_ok.mp (mapError_eq_ok.mp services) s hs
    rw [(b.checkService_eq_error s e).mpr fault] at passes
    cases passes
  · exact SchemeRegistry.resolve_eq_ok.mp (mapError_eq_ok.mp resolved)
  · intro m hm
    obtain ⟨service, worker⟩ := crossing m hm
    refine ⟨service, fun value => ?_⟩
    obtain ⟨s, hs, name⟩ := names.mem_values_iff.mp value
    exact worker s hs name

end Builder

end NotaryNetwork
