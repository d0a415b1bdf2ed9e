import NotaryNetwork.Proofs.Build.Stages

/-!
# Networks that are built

The parts of a network that is built agree with its configuration and with each other, whatever the
source, the registry and the naming are (`build_coherent`).
-/

namespace NotaryNetwork

/-- What holds of a network that a builder made of a configuration. -/
structure Coherent {σ : Type} (b : Builder σ) (c : NetworkConfig) (n : Network) : Prop where
  members : n.members.keys = c.members
  services : n.services = c.services
  /-- Every worker is the one that the naming gives its service. -/
  named : ∀ entry ∈ n.workers.entries, b.workerNaming entry.1 = .ok entry.2
  /-- The keys of workers are in the order of their services. -/
  notaries : n.notaries.keys = n.workers.values
  distinct : n.workers.values.Nodup
  /-- Every worker with keys is that of one service alone. -/
  exactlyOne : ∀ w ∈ n.notaries.keys, ∃ s ∈ c.services, n.workerFor s = .ok w ∧
    ∀ t, n.workerFor t = .ok w → t = s
  apart : ∀ m ∈ c.members, m ∉ c.services ∧ m ∉ n.workers.values
  schemeName : n.schemeName = c.schemeName.val
  pairs : ∀ pair ∈ n.members.values ++ n.notaries.values, pair.schemeName = c.schemeName.val
  /-- Every service has a worker, and the worker has a key. -/
  found : ∀ s ∈ c.services, ∃ w ∈ n.notaries.keys, ∃ key,
    n.workerFor s = .ok w ∧ n.notaryPublicKey s = .ok key
  count : n.groupParameters.length = (c.notaries.map fun d => 3 + d.versions.val.length).sum
  parameters : (n.groupParameters.map (·.key.val)).Nodup
  /-- As a table the group parameters are the same, in their order. -/
  table : n.parameterTable.entries = n.groupParameters.map fun e => (e.key.val, e.value)
  /-- Every service has the key of its worker under its number. -/
  published : ∀ (i : Nat) s, c.services[i]? = some s → ∃ key, n.notaryPublicKey s = .ok key ∧
    n.parameterTable.get? ("service." ++ toString i ++ ".keys.0") = some (b.encodeKey key)

namespace Network

variable {n : Network}

theorem workerFor_eq_ok {s w : Identity} : n.workerFor s = .ok w ↔ n.workers.get? s = some w := by
  unfold workerFor
  cases n.workers.get? s <;> simp

theorem notaryPublicKey_of_workerPair {s : Identity} {pair : KeyPair}
    (h : Parameters.workerPair n.workers n.notaries s = .ok pair) :
    n.notaryPublicKey s = .ok pair.publicKey := by
  obtain ⟨w, mapped, found⟩ := Parameters.workerPair_eq_ok.mp h
  rw [notaryPublicKey, workerFor_eq_ok.mpr mapped]
  simp [found, bind, Except.bind, pure, Except.pure]

/-- Where workers are distinct, a worker has one service. -/
theorem eq_of_workerFor (distinct : n.workers.values.Nodup) {s t w : Identity}
    (hs : n.workerFor s = .ok w) (ht : n.workerFor t = .ok w) : t = s := by
  have found : ∀ {s}, n.workerFor s = .ok w →
      (Topology.passed n.workers.entries).lookup w = some s := fun h =>
    (Topology.lookup_passed distinct _ w).mpr (Table.get?_eq_some_iff.mp (workerFor_eq_ok.mp h))
  exact Option.some.inj ((found ht).symm.trans (found hs))

theorem entries_parameterTable (h : (n.groupParameters.map (·.key.val)).Nodup) :
    n.parameterTable.entries = n.groupParameters.map fun e => (e.key.val, e.value) := by
  refine Table.entries_ofList ?_
  rw [List.map_map]
  exact h

/-- Under the number of a service stands the key of its worker. -/
theorem exists_published {encodeKey : PublicKey → String} {c : NetworkConfig}
    (made : Parameters.entriesFrom encodeKey n.workers n.notaries 0 c.notaries =
      .ok n.groupParameters) {i : Nat} {s : Identity} (place : c.services[i]? = some s) :
    ∃ key, n.notaryPublicKey s = .ok key ∧
      n.parameterTable.get? ("service." ++ toString i ++ ".keys.0") = some (encodeKey key) := by
  rw [NetworkConfig.services, List.getElem?_map] at place
  obtain ⟨d, declared, rfl⟩ := Option.map_eq_some_iff.mp place
  obtain ⟨pair, found, member⟩ := Parameters.publicKey_mem_entriesFrom made declared
  refine ⟨pair.publicKey, notaryPublicKey_of_workerPair found, ?_⟩
  rw [Nat.zero_add] at member
  rw [Table.get?_eq_some_iff, entries_parameterTable (Parameters.nodup_keys_entriesFrom made)]
  exact List.mem_map.mpr ⟨_, member, rfl⟩

/-- The worker that a key is looked up for is among the workers. -/
theorem exists_workerFor {s : Identity} {key : PublicKey}
    (h : n.notaryPublicKey s = .ok key) : ∃ w ∈ n.workers.values, n.workerFor s = .ok w := by
  obtain ⟨w, found, -⟩ := bind_eq_ok.mp h
  refine ⟨w, ?_, found⟩
  rw [Table.values_eq_map]
  exact List.mem_map.mpr ⟨(s, w), Table.get?_eq_some_iff.mp (workerFor_eq_ok.mp found), rfl⟩

end Network

namespace Builder

variable {σ : Type} {b : Builder σ} {c : NetworkConfig}

theorem entriesFrom_of_encodeParameters {plan : Plan} (planned : Planned b c plan)
    {keys : Table Identity KeyPair} {entries : List GroupParameter}
    (h : (b.encodeParameters c plan keys).outcome = .ok entries) :
    Parameters.entriesFrom b.encodeKey plan.workers keys 0 c.notaries = .ok entries := by
  by_cases workerless : plan.workers.values = []
  · rw [encodeParameters_of_nil workerless] at h
    cases h
    rw [notaries_eq_nil planned workerless]
    rfl
  · rw [encodeParameters_of_ne_nil workerless] at h
    exact (Parameters.encode_eq_ok.mp h).1

/-- **A network that is built agrees with its configuration.** -/
theorem build_coherent {source : σ} {n : Network} (h : (b.build c source).1.outcome = .ok n) :
    Coherent b c n := by
  obtain ⟨plan, planned, memberKeys, notaryKeys, workers, encoded, schemeName⟩ := build_eq_ok h
  have made := entriesFrom_of_encodeParameters planned encoded
  rw [← workers] at made
  have names : Topology.Names b.workerNaming c.services n.workers := workers ▸ planned.workers
  have distinct : n.workers.values.Nodup := workers ▸ planned.distinct
  have notaries : n.notaries.keys = n.workers.values := notaryKeys.keys.trans (by rw [workers])
  have scheme : plan.scheme.codeName = c.schemeName.val :=
    (SchemeRegistry.of_find? planned.scheme).2
  have nodup := Parameters.nodup_keys_entriesFrom made
  have table := Network.entries_parameterTable nodup
  refine ⟨memberKeys.keys, names.keys, names.named, notaries, distinct, ?_, ?_, ?_, ?_, ?_,
    Parameters.length_entriesFrom made, nodup, table, fun i s => Network.exists_published made⟩
  · intro w hw
    rw [notaries] at hw
    obtain ⟨s, hs, name⟩ := names.mem_values_iff.mp hw
    have own := Network.workerFor_eq_ok.mpr (names.get?_eq_some_iff.mpr ⟨hs, name⟩)
    exact ⟨s, hs, own, fun t ht => Network.eq_of_workerFor distinct own ht⟩
  · intro m hm
    rw [workers]
    exact planned.apart m hm
  · exact schemeName.trans scheme
  · intro pair hp
    rcases List.mem_append.mp hp with member | notary
    · exact (memberKeys.schemeName pair member).trans scheme
    · exact (notaryKeys.schemeName pair notary).trans scheme
  · intro s hs
    obtain ⟨i, place⟩ := List.mem_iff_getElem?.mp hs
    obtain ⟨key, known, -⟩ := Network.exists_published made place
    obtain ⟨w, member, worker⟩ := Network.exists_workerFor known
    exact ⟨w, notaries ▸ member, key, worker, known⟩

/-- A builder whose source gives 32 zeros for every key. -/
def zeros : Builder Unit :=
  ⟨.platform, ⟨fun _ s => (.ok (List.replicate 32 0), s), fun _ => 0⟩, none, fun _ => "key"⟩

/-- A member in Berlin and a notary in Paris. -/
def twoCities : NetworkConfig :=
  ⟨[⟨none, none, ⟨"A", by decide⟩, ⟨"Berlin", by decide⟩, none, ⟨"DE", by decide⟩⟩],
    [⟨⟨none, none, ⟨"N", by decide⟩, ⟨"Paris", by decide⟩, none, ⟨"FR", by decide⟩⟩,
      ⟨[2, 1], by decide⟩⟩],
    ⟨"CORDA.X25519", by decide⟩, by decide, by decide⟩

theorem renderable_twoCities : ∀ s ∈ twoCities.services, s.Renderable := by
  intro s hs
  obtain rfl := List.mem_singleton.mp hs
  exact ⟨_, rfl⟩

theorem build_coherent_twoCities :
    ∃ n, (zeros.build twoCities ()).1.outcome = .ok n ∧ Coherent zeros twoCities n := by
  have succeeds : (zeros.build twoCities ()).1.outcome.toOption.isSome = true := by decide +kernel
  cases built : (zeros.build twoCities ()).1.outcome with
  | error f =>
    rw [built] at succeeds
    cases succeeds
  | ok n => exact ⟨n, rfl, build_coherent built⟩

end Builder

end NotaryNetwork
