import NotaryNetwork.Proofs.Build.Checks
import NotaryNetwork.Proofs.Build.Encoding
import NotaryNetwork.Proofs.Build.Provisioning

/-!
# The stages of building

A network is planned, the members and the workers get keys, and the parameters are encoded
(`Staged`). A network that is built has the results of all stages (`build_eq_ok`); a failure is that
of one of them (`build_eq_error`), and if it is the plan that fails the source is as before
(`build_of_refusal`). With keys at hand only the encoding is left to fail, in one of two ways
(`encodeParameters_ofEncoding`), and no stage before it fails like that (`plan_not_ofEncoding`).
-/

namespace NotaryNetwork

namespace Parameters

theorem exists_workerPair {services : List Identity} {naming : WorkerNaming}
    {workers : Table Identity Identity} {keys : Table Identity KeyPair} {scheme : KeyScheme}
    (names : Topology.Names naming services workers)
    (made : Provisioned scheme workers.values keys) {s : Identity} (h : s ∈ services) :
    ∃ pair, workerPair workers keys s = .ok pair := by
  rw [← names.keys] at h
  obtain ⟨⟨s, w⟩, entry, rfl⟩ := List.mem_map.mp h
  have worker : w ∈ keys.keys := by
    rw [made.keys]
    exact List.mem_map.mpr ⟨(s, w), entry, rfl⟩
  obtain ⟨⟨w, pair⟩, key, rfl⟩ := List.mem_map.mp worker
  exact ⟨pair, workerPair_eq_ok.mpr
    ⟨w, Table.get?_eq_some_iff.mpr entry, Table.get?_eq_some_iff.mpr key⟩⟩

end Parameters

/-! ## Failures of an encoding -/

/-- Failures that come of nothing but the encoding of parameters: a version is not written, or
entries break their contract. -/
inductive Failure.OfEncoding : Failure → Prop
  | tooManyDigits : OfEncoding .tooManyDigits
  | contract (violation : Contract.Violation) : OfEncoding (.contract violation)

theorem Provisioner.Refusal.not_ofEncoding (refusal : Refusal) (scheme : KeyScheme) :
    ¬ (refusal.toFailure scheme).OfEncoding := by
  cases refusal <;> exact nofun

namespace Topology

theorem namingFailure_not_ofEncoding (s : Identity) (e : Identity.ParseError) :
    ¬ (namingFailure s e).OfEncoding := by
  unfold namingFailure
  split
  · split <;> exact nofun
  · exact nofun

theorem checkMembers_not_ofEncoding {members : List Identity} {workers : Table Identity Identity}
    {f : Failure} (h : checkMembers members workers = .error f) : ¬ f.OfEncoding := by
  unfold checkMembers at h
  split at h
  · cases h
  · cases h
    unfold overlapFailure
    split <;> exact nofun

theorem checkShared_not_ofEncoding {workers : Table Identity Identity} {f : Failure}
    (h : checkShared workers = .error f) : ¬ f.OfEncoding := by
  unfold checkShared at h
  split at h
  · cases h
  · cases h
    unfold sharedFailure
    split <;> exact nofun

end Topology

namespace Builder

variable {σ : Type} {b : Builder σ} {c : NetworkConfig} {source : σ}

/-- **Where the plan fails nothing else is done.** -/
theorem build_of_refusal {f : Failure} (h : (b.plan c).outcome = .error f) :
    b.build c source = (⟨(b.plan c).journal, .error f⟩, source) := by
  have refused : (Job.ofTraced (b.plan c) source).1.outcome = .error f := h
  unfold build
  rw [Job.bind_of_error refused]
  rfl

theorem notaries_eq_nil {plan : Plan} (planned : Planned b c plan)
    (workerless : plan.workers.values = []) : c.notaries = [] := by
  have services := planned.workers.keys
  rw [Table.keys_eq_map, List.map_eq_nil_iff.mp workerless] at services
  exact List.map_eq_nil_iff.mp services.symm

theorem provisionNotaries_of_nil {plan : Plan} (h : plan.workers.values = []) :
    b.provisionNotaries plan = pure .empty := by
  unfold provisionNotaries
  rw [h]

theorem provisionNotaries_of_ne_nil {plan : Plan} (h : plan.workers.values ≠ []) :
    b.provisionNotaries plan = b.provisioner.generatePairs plan.scheme plan.workers.values := by
  unfold provisionNotaries
  cases workers : plan.workers.values with
  | nil => exact absurd workers h
  | cons w ws => rfl

theorem encodeParameters_of_nil {plan : Plan} (h : plan.workers.values = [])
    (keys : Table Identity KeyPair) : b.encodeParameters c plan keys = pure [] := by
  unfold encodeParameters
  rw [h]

theorem encodeParameters_of_ne_nil {plan : Plan} (h : plan.workers.values ≠ [])
    (keys : Table Identity KeyPair) : b.encodeParameters c plan keys =
      Parameters.encode b.encodeKey c.notaries plan.workers keys := by
  unfold encodeParameters
  cases workers : plan.workers.values with
  | nil => exact absurd workers h
  | cons w ws => rfl

theorem provisionNotaries_eq_ok {plan : Plan} (distinct : plan.workers.values.Nodup)
    {keys : Table Identity KeyPair} (h : (b.provisionNotaries plan source).1.outcome = .ok keys) :
    Provisioned plan.scheme plan.workers.values keys := by
  by_cases workerless : plan.workers.values = []
  · rw [provisionNotaries_of_nil workerless] at h
    cases h
    rw [workerless]
    exact ⟨rfl, fun pair member => nomatch member⟩
  · rw [provisionNotaries_of_ne_nil workerless] at h
    exact Provisioner.generatePairs_eq_ok distinct h

/-- The stages on the way to a network, and what came of them. -/
structure Staged (b : Builder σ) (c : NetworkConfig) (source : σ) (plan : Plan) (n : Network) :
    Prop where
  made : (b.plan c).outcome = .ok plan
  members : (b.provisioner.generatePairs plan.scheme c.members source).1.outcome = .ok n.members
  /-- The workers draw on the source as the members leave it. -/
  notaries : (b.provisionNotaries plan
    (b.provisioner.generatePairs plan.scheme c.members source).2).1.outcome = .ok n.notaries
  workers : n.workers = plan.workers
  parameters : (b.encodeParameters c plan n.notaries).outcome = .ok n.groupParameters
  schemeName : n.schemeName = plan.scheme.codeName

/-- A network that is built has come through all stages. -/
theorem exists_staged {n : Network} (h : (b.build c source).1.outcome = .ok n) :
    ∃ plan, Staged b c source plan n := by
  unfold build at h
  obtain ⟨plan, made, h⟩ := Job.bind_eq_ok h
  obtain ⟨members, memberKeys, h⟩ := Job.bind_eq_ok h
  obtain ⟨notaries, notaryKeys, h⟩ := Job.bind_eq_ok h
  obtain ⟨parameters, encoded, h⟩ := Job.bind_eq_ok h
  cases h
  exact ⟨plan, made, memberKeys, notaryKeys, rfl, encoded, rfl⟩

/-- **A network that is built has the results of all stages.** -/
theorem build_eq_ok {n : Network} (h : (b.build c source).1.outcome = .ok n) :
    ∃ plan, Planned b c plan ∧ Provisioned plan.scheme c.members n.members ∧
      Provisioned plan.scheme plan.workers.values n.notaries ∧ n.workers = plan.workers ∧
      (b.encodeParameters c plan n.notaries).outcome = .ok n.groupParameters ∧
      n.schemeName = plan.scheme.codeName := by
  obtain ⟨plan, staged⟩ := exists_staged h
  have planned := plan_eq_ok staged.made
  exact ⟨plan, planned, Provisioner.generatePairs_eq_ok c.members_nodup staged.members,
    provisionNotaries_eq_ok planned.distinct staged.notaries, staged.workers, staged.parameters,
    staged.schemeName⟩

/-- With all keys at hand the encoding decides, and the source is as the keys leave it. -/
theorem build_of_keys {plan : Plan} {members notaries : Table Identity KeyPair}
    (made : (b.plan c).outcome = .ok plan)
    (memberKeys : (b.provisioner.generatePairs plan.scheme c.members source).1.outcome =
      .ok members)
    (notaryKeys : (b.provisionNotaries plan
      (b.provisioner.generatePairs plan.scheme c.members source).2).1.outcome = .ok notaries) :
    (b.build c source).1.outcome = (b.encodeParameters c plan notaries).outcome.map
        (fun parameters =>
          ⟨members, notaries, plan.workers, parameters, plan.scheme.codeName⟩) ∧
      (b.build c source).2 = (b.provisionNotaries plan
        (b.provisioner.generatePairs plan.scheme c.members source).2).2 := by
  have planned : (Job.ofTraced (b.plan c) source).1.outcome = .ok plan := made
  refine Job.of_bind_ok (P := fun o s => o = _ ∧ s = _) planned ?_
  refine Job.of_bind_ok (P := fun o s => o = _ ∧ s = _) memberKeys ?_
  refine Job.of_bind_ok (P := fun o s => o = _ ∧ s = _) notaryKeys ?_
  cases encoded : (b.encodeParameters c plan notaries).outcome with
  | error f =>
    have fails : ∀ s : σ,
        (Job.ofTraced (b.encodeParameters c plan notaries) s).1.outcome = .error f :=
      fun _ => encoded
    rw [Job.bind_of_error (fails _)]
    exact ⟨rfl, rfl⟩
  | ok parameters =>
    have succeeds : ∀ s : σ, (Job.ofTraced (b.encodeParameters c plan notaries) s).1.outcome =
        .ok parameters := fun _ => encoded
    exact Job.outcome_bind_of_ok (succeeds _)

/-- Where members get no keys, nothing else is done. -/
theorem build_of_members_error {plan : Plan} {f : Failure} (made : (b.plan c).outcome = .ok plan)
    (fails : (b.provisioner.generatePairs plan.scheme c.members source).1.outcome = .error f) :
    (b.build c source).1.outcome = .error f ∧
      (b.build c source).2 = (b.provisioner.generatePairs plan.scheme c.members source).2 := by
  have planned : (Job.ofTraced (b.plan c) source).1.outcome = .ok plan := made
  refine Job.of_bind_ok (P := fun o s => o = _ ∧ s = _) planned ?_
  exact Job.of_bind_error (P := fun o s => o = _ ∧ s = _) fails ⟨rfl, rfl⟩

theorem build_of_notaries_error {plan : Plan} {members : Table Identity KeyPair} {f : Failure}
    (made : (b.plan c).outcome = .ok plan)
    (memberKeys : (b.provisioner.generatePairs plan.scheme c.members source).1.outcome =
      .ok members)
    (fails : (b.provisionNotaries plan
      (b.provisioner.generatePairs plan.scheme c.members source).2).1.outcome = .error f) :
    (b.build c source).1.outcome = .error f ∧
      (b.build c source).2 = (b.provisionNotaries plan
        (b.provisioner.generatePairs plan.scheme c.members source).2).2 := by
  have planned : (Job.ofTraced (b.plan c) source).1.outcome = .ok plan := made
  refine Job.of_bind_ok (P := fun o s => o = _ ∧ s = _) planned ?_
  refine Job.of_bind_ok (P := fun o s => o = _ ∧ s = _) memberKeys ?_
  exact Job.of_bind_error (P := fun o s => o = _ ∧ s = _) fails ⟨rfl, rfl⟩

/-- Workers get their keys as any identities do; there may be none of them. -/
theorem provisionNotaries_apply (b : Builder σ) (plan : Plan) (s : σ) :
    (b.provisionNotaries plan s).1.outcome =
        (b.provisioner.generatePairs plan.scheme plan.workers.values s).1.outcome ∧
      (b.provisionNotaries plan s).2 =
        (b.provisioner.generatePairs plan.scheme plan.workers.values s).2 := by
  by_cases workerless : plan.workers.values = []
  · rw [provisionNotaries_of_nil workerless, workerless]
    exact ⟨rfl, rfl⟩
  · rw [provisionNotaries_of_ne_nil workerless]
    exact ⟨rfl, rfl⟩

theorem provisionNotaries_eq_error {plan : Plan} {f : Failure}
    (h : (b.provisionNotaries plan source).1.outcome = .error f) :
    ∃ refusal : Provisioner.Refusal, f = refusal.toFailure plan.scheme := by
  by_cases workerless : plan.workers.values = []
  · rw [provisionNotaries_of_nil workerless] at h
    cases h
  · rw [provisionNotaries_of_ne_nil workerless] at h
    exact Provisioner.generatePairs_eq_error h

theorem encodeParameters_eq_error {plan : Plan} {keys : Table Identity KeyPair} {f : Failure}
    (h : (b.encodeParameters c plan keys).outcome = .error f) (e : BuildError) : f ≠ .build e := by
  by_cases workerless : plan.workers.values = []
  · rw [encodeParameters_of_nil workerless] at h
    cases h
  · rw [encodeParameters_of_ne_nil workerless] at h
    exact Parameters.encode_ne_build h e

/-- With keys at hand the parameters are encoded just if the declarations are spelled and no key is
encoded by nothing. -/
theorem exists_encodeParameters_iff {plan : Plan} (planned : Planned b c plan)
    {keys : Table Identity KeyPair} (made : Provisioned plan.scheme plan.workers.values keys) :
    (∃ ps, (b.encodeParameters c plan keys).outcome = .ok ps) ↔
      (∀ d ∈ c.notaries, d.Spelled) ∧ ∀ d ∈ c.notaries, ∀ pair,
        Parameters.workerPair plan.workers keys d.service = .ok pair →
          1 ≤ (b.encodeKey pair.publicKey).length := by
  have pairs : ∀ d ∈ c.notaries, ∃ pair,
      Parameters.workerPair plan.workers keys d.service = .ok pair :=
    fun d hd => Parameters.exists_workerPair planned.workers made (List.mem_map.mpr ⟨d, hd, rfl⟩)
  by_cases workerless : plan.workers.values = []
  · rw [encodeParameters_of_nil workerless, notaries_eq_nil planned workerless]
    exact iff_of_true ⟨[], rfl⟩ ⟨nofun, nofun⟩
  rw [encodeParameters_of_ne_nil workerless]
  constructor
  · rintro ⟨ps, encoded⟩
    obtain ⟨entries, filled⟩ := Parameters.encode_eq_ok_iff.mp encoded
    have encodable := Parameters.exists_entriesFrom_iff.mp ⟨ps, entries⟩
    exact ⟨fun d hd => (encodable d hd).2, (Parameters.filled_iff entries).mp filled⟩
  · rintro ⟨spelled, filled⟩
    obtain ⟨ps, entries⟩ :=
      Parameters.exists_entriesFrom_iff.mpr fun d hd => ⟨pairs d hd, spelled d hd⟩
    exact ⟨ps, Parameters.encode_eq_ok_iff.mpr
      ⟨entries, (Parameters.filled_iff entries).mpr filled⟩⟩

/-- With keys and texts at hand only failures of the encoding are left. -/
theorem encodeParameters_ofEncoding {plan : Plan} (planned : Planned b c plan)
    {keys : Table Identity KeyPair} (made : Provisioned plan.scheme plan.workers.values keys)
    (texts : ∀ s ∈ c.services, s.Renderable) {f : Failure}
    (h : (b.encodeParameters c plan keys).outcome = .error f) : f.OfEncoding := by
  by_cases workerless : plan.workers.values = []
  · rw [encodeParameters_of_nil workerless] at h
    cases h
  rw [encodeParameters_of_ne_nil workerless] at h
  rcases Parameters.encode_eq_error.mp h with unmade | ⟨_, violation, -, -, rfl⟩
  · obtain ⟨d, first, fault⟩ := Parameters.entriesFrom_eq_error.mp unmade
    have service : d.service ∈ c.services := List.mem_map.mpr ⟨d, first.mem, rfl⟩
    cases fault with
    | keyless missing =>
      obtain ⟨pair, found⟩ := Parameters.exists_workerPair planned.workers made service
      cases missing.symm.trans found
    | unrenderable _ unrendered =>
      obtain ⟨text, rendered⟩ := texts d.service service
      cases unrendered.symm.trans rendered
    | unwritten _ _ _ => exact .tooManyDigits
  · exact .contract violation

/-- No plan fails like an encoding. -/
theorem plan_not_ofEncoding {f : Failure} (h : (b.plan c).outcome = .error f) : ¬ f.OfEncoding := by
  have family : ∀ {α : Type} {x : Except BuildError α}, x.mapError .build = .error f →
      ¬ f.OfEncoding := by
    intro α x fails
    obtain ⟨e, -, rfl⟩ := mapError_eq_error.mp fails
    exact nofun
  rw [outcome_plan] at h
  rcases bind_eq_error.mp h with members | ⟨-, -, h⟩
  · exact family members
  rcases bind_eq_error.mp h with services | ⟨-, -, h⟩
  · exact family services
  rcases bind_eq_error.mp h with scheme | ⟨scheme, -, h⟩
  · exact family scheme
  rcases bind_eq_error.mp h with unnamed | ⟨workers, -, h⟩
  · obtain ⟨s, e, -, -, rfl⟩ := Topology.nameWorkers_eq_error.mp unnamed
    exact Topology.namingFailure_not_ofEncoding s e
  rcases bind_eq_error.mp h with overlap | ⟨-, -, h⟩
  · exact Topology.checkMembers_not_ofEncoding overlap
  rcases bind_eq_error.mp h with shared | ⟨-, -, h⟩
  · exact Topology.checkShared_not_ofEncoding shared
  · cases h

theorem keyGeneration_of_refusal {scheme : KeyScheme} {refusal : Provisioner.Refusal}
    {e : BuildError} (h : Failure.build e = refusal.toFailure scheme) :
    ∃ fault, e = .keyGeneration scheme.codeName fault := by
  cases refusal with
  | key fault =>
    cases h
    exact ⟨fault, rfl⟩
  | passing fault => cases h

/-- **An error of the family comes from the plan or from the generation of keys.** -/
theorem build_eq_error {e : BuildError} (h : (b.build c source).1.outcome = .error (.build e)) :
    (b.plan c).outcome = .error (.build e) ∨ ∃ scheme fault, e = .keyGeneration scheme fault := by
  unfold build at h
  rcases Job.bind_eq_error h with refused | ⟨plan, made, h⟩
  · exact .inl refused
  right
  rcases Job.bind_eq_error h with members | ⟨members, -, h⟩
  · obtain ⟨refusal, said⟩ := Provisioner.generatePairs_eq_error members
    exact ⟨_, keyGeneration_of_refusal said⟩
  rcases Job.bind_eq_error h with notaries | ⟨notaries, -, h⟩
  · obtain ⟨refusal, said⟩ := provisionNotaries_eq_error notaries
    exact ⟨_, keyGeneration_of_refusal said⟩
  rcases Job.bind_eq_error h with parameters | ⟨parameters, -, h⟩
  · exact absurd rfl (encodeParameters_eq_error parameters e)
  · cases h

end Builder

end NotaryNetwork
