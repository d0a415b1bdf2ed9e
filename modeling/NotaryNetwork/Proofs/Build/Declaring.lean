import NotaryNetwork.Proofs.Build.Attempts
import NotaryNetwork.Proofs.Build.Resolution
import NotaryNetwork.Proofs.Config.Update

/-!
# Networks after a declaration

What a declaration changes of a network that is built from the same seed. The members draw first and
the workers after them, in the order of their services, so a service that is new takes the bytes
behind all others and its entries come last (`Network.Extends`). A service that is declared again
keeps its place, and with it its worker and its key; only the entries of its versions are replaced
(`Network.Revised`).
-/

namespace NotaryNetwork

open NotaryNetwork.Topology (harbour lighthouse)

variable {σ : Type}

/-! ## Entries of versions -/

namespace Parameters

variable {encodeKey : PublicKey → String} {workers : Table Identity Identity}
  {keys : Table Identity KeyPair}

/-- The entries of a service before those of its versions. -/
def leadingEntries (service : Nat) (text key : String) : List GroupParameter :=
  [(ParameterKey.name service).entry text, (ParameterKey.publicKey service).entry key,
    (ParameterKey.protocol service).entry protocolName]

theorem serviceEntries_eq (service : Nat) (text key : String) (versions : List String) :
    serviceEntries service text key versions =
      leadingEntries service text key ++ versionEntries service 0 versions := rfl

theorem ne_version_of_mem_leadingEntries {service : Nat} {text key : String} {e : GroupParameter}
    (h : e ∈ leadingEntries service text key) (i j : Nat) :
    e.key.val ≠ (ParameterKey.version i j).render := by
  simp only [leadingEntries, List.mem_cons, List.not_mem_nil, or_false] at h
  intro version
  rcases h with rfl | rfl | rfl
  · have same : ParameterKey.name service = .version i j := ParameterKey.render_injective version
    cases same
  · have same : ParameterKey.publicKey service = .version i j :=
      ParameterKey.render_injective version
    cases same
  · have same : ParameterKey.protocol service = .version i j :=
      ParameterKey.render_injective version
    cases same

/-- **New versions of one service replace the entries of its old versions and no others.** -/
theorem entriesFrom_revised {index : Nat} {before after : List NotaryDeclaration}
    {old new : NotaryDeclaration} (same : old.service = new.service)
    {entries entries' : List GroupParameter}
    (h : entriesFrom encodeKey workers keys index (before ++ old :: after) = .ok entries)
    (h' : entriesFrom encodeKey workers keys index (before ++ new :: after) = .ok entries') :
    ∃ front back,
      entries = front ++ versionEntries (index + before.length) 0 old.versionTexts ++ back ∧
      entries' = front ++ versionEntries (index + before.length) 0 new.versionTexts ++ back ∧
      ∀ e ∈ front ++ back, ∀ j,
        e.key.val ≠ (ParameterKey.version (index + before.length) j).render := by
  obtain ⟨first, _, made, rest, rfl⟩ := entriesFrom_append.mp h
  obtain ⟨first', _, made', rest', rfl⟩ := entriesFrom_append.mp h'
  obtain ⟨pair, text, back, found, rendered, -, later, rfl⟩ := entriesFrom_cons.mp rest
  obtain ⟨pair', text', back', found', rendered', -, later', rfl⟩ := entriesFrom_cons.mp rest'
  rw [same] at found rendered
  obtain rfl : first = first' := Except.ok.inj (made.symm.trans made')
  obtain rfl : pair = pair' := Except.ok.inj (found.symm.trans found')
  obtain rfl : text = text' := Except.ok.inj (rendered.symm.trans rendered')
  obtain rfl : back = back' := Except.ok.inj (later.symm.trans later')
  refine ⟨first ++ leadingEntries (index + before.length) text (encodeKey pair.publicKey), back,
    ?_, ?_, ?_⟩
  · rw [serviceEntries_eq, List.append_assoc, List.append_assoc, List.append_assoc]
  · rw [serviceEntries_eq, List.append_assoc, List.append_assoc, List.append_assoc]
  · intro e member j version
    -- The services before have smaller numbers, and those after have greater ones.
    rcases List.mem_append.mp member with front | last
    · rcases List.mem_append.mp front with earlier | leading
      · obtain ⟨key, here, text⟩ := exists_key made earlier
        have bound := service_lt_of_mem_keysFrom here
        rw [ParameterKey.render_injective (text.symm.trans version)] at bound
        exact Nat.lt_irrefl _ bound
      · exact ne_version_of_mem_leadingEntries leading _ j version
    · obtain ⟨key, here, text⟩ := exists_key later last
      have bound := le_service_of_mem_keysFrom here
      rw [ParameterKey.render_injective (text.symm.trans version)] at bound
      exact Nat.not_succ_le_self _ bound

/-- The key of the entry of a version. -/
def versionKey (service index : Nat) : String :=
  "service." ++ toString service ++ ".flow.protocol.version." ++ toString index

/-- Entries are those of versions of a service: each has the number of its version in the key, and
the version in decimal for its value. -/
def AreVersions (service : Nat) (versions : List Nat) (entries : List GroupParameter) : Prop :=
  entries.map (fun e => (e.key.val, e.value)) =
    versions.mapIdx fun index v => (versionKey service index, toString v)

theorem map_versionEntries (service start : Nat) (versions : List Nat) :
    (versionEntries service start (versions.map toString)).map (fun e => (e.key.val, e.value)) =
      versions.mapIdx fun index v => (versionKey service (start + index), toString v) := by
  induction versions generalizing start with
  | nil => rfl
  | cons v vs ih =>
    rw [List.map_cons, versionEntries, List.map_cons, ih, List.mapIdx_cons]
    simp only [Nat.add_assoc, Nat.add_comm 1]
    rfl

theorem areVersions_versionEntries (service : Nat) (d : NotaryDeclaration) :
    AreVersions service d.versions.val (versionEntries service 0 d.versionTexts) := by
  have entries := map_versionEntries service 0 d.versions.val
  simp only [Nat.zero_add] at entries
  exact entries

end Parameters

/-! ## Networks -/

/-- The network of one service more: its worker, the key of the worker and its entries come last,
and all else is as it was. -/
structure Network.Extends (n n' : Network) (service : Identity) : Prop where
  members : n'.members = n.members
  added : ∃ worker pair, n'.workers.entries = n.workers.entries ++ [(service, worker)] ∧
    n'.notaries.entries = n.notaries.entries ++ [(worker, pair)]
  groupParameters : n.groupParameters <+: n'.groupParameters
  schemeName : n'.schemeName = n.schemeName

/-- The network of other versions of the service with a number: the entries of its versions are
replaced, and all else is as it was. -/
structure Network.Revised (n n' : Network) (service : Nat) (old new : List Nat) : Prop where
  members : n'.members = n.members
  notaries : n'.notaries = n.notaries
  workers : n'.workers = n.workers
  groupParameters : ∃ before replaced replacing after,
    n.groupParameters = before ++ replaced ++ after ∧
    n'.groupParameters = before ++ replacing ++ after ∧
    Parameters.AreVersions service old replaced ∧ Parameters.AreVersions service new replacing ∧
    ∀ e ∈ before ++ after, ∀ index, e.key.val ≠ Parameters.versionKey service index
  schemeName : n'.schemeName = n.schemeName

namespace Builder

variable {b : Builder σ} {c c' : NetworkConfig} {d old : NotaryDeclaration} {source : σ}
  {plan plan' : Plan} {n n' : Network}

/-- A network that is not of RSA keys comes about in the same way with any RSA keys. -/
theorem Staged.congr {registry : SchemeRegistry} {naming : Option WorkerNaming}
    {encodeKey : PublicKey → String} {draw : Random.Draw σ} {modulus modulus' : Nat → Nat}
    (other : ¬ plan.scheme.MakesRsa)
    (h : Staged ⟨registry, ⟨draw, modulus'⟩, naming, encodeKey⟩ c source plan n) :
    Staged ⟨registry, ⟨draw, modulus⟩, naming, encodeKey⟩ c source plan n := by
  have keys (is : List Identity) :
      (⟨draw, modulus⟩ : Provisioner σ).generatePairs plan.scheme is =
        (⟨draw, modulus'⟩ : Provisioner σ).generatePairs plan.scheme is :=
    Provisioner.generatePairs_congr (p := ⟨draw, modulus⟩) (q := ⟨draw, modulus'⟩) rfl other is
  have notaries := h.notaries
  rw [(provisionNotaries_apply _ plan _).1] at notaries
  refine ⟨h.made, ?_, ?_, h.workers, h.parameters, h.schemeName⟩
  · rw [keys]
    exact h.members
  · rw [(provisionNotaries_apply _ plan _).1, keys, keys]
    exact notaries

/-- The members draw first, so they have the same keys whatever the services are. -/
theorem Staged.same_members (staged : Staged b c source plan n)
    (staged' : Staged b c' source plan' n') (members : c'.members = c.members)
    (names : c'.schemeName = c.schemeName) :
    plan'.scheme = plan.scheme ∧ n'.members = n.members ∧ n'.schemeName = n.schemeName := by
  have found := (plan_eq_ok staged.made).scheme
  have found' := (plan_eq_ok staged'.made).scheme
  rw [names, found] at found'
  obtain same : plan.scheme = plan'.scheme := Option.some.inj found'
  have keys' := staged'.members
  rw [members, ← same, staged.members] at keys'
  refine ⟨same.symm, (Except.ok.inj keys').symm, ?_⟩
  rw [staged'.schemeName, ← same, staged.schemeName]

/-- The workers draw on the source as the same members leave it. -/
theorem Staged.notaries_eq_ok (staged : Staged b c source plan n) {scheme : KeyScheme}
    {members : List Identity} (same : plan.scheme = scheme) (names : c.members = members) :
    (b.provisioner.generatePairs scheme plan.workers.values
      (b.provisioner.generatePairs scheme members source).2).1.outcome = .ok n.notaries := by
  have notaries := staged.notaries
  rw [(provisionNotaries_apply b plan _).1, same, names] at notaries
  exact notaries

theorem extends_of_staged (new : d.service ∉ c.services) (staged : Staged b c source plan n)
    (staged' : Staged b (c.withDeclaration d) source plan' n') : n.Extends n' d.service := by
  have planned := plan_eq_ok staged.made
  have planned' := plan_eq_ok staged'.made
  have declared : (c.withDeclaration d).notaries = c.notaries ++ [d] :=
    NetworkConfig.redeclare_of_not_mem new
  obtain ⟨scheme, members, schemeName⟩ := staged.same_members staged' rfl rfl
  have names' := planned'.workers
  rw [NetworkConfig.services, declared, List.map_append] at names'
  obtain ⟨worker, workers⟩ := planned.workers.append names'
  have values : plan'.workers.values = plan.workers.values ++ [worker] := by
    rw [Table.values_eq_map, workers, List.map_append]
    rfl
  have notaries := staged.notaries_eq_ok rfl rfl
  have notaries' : (b.provisioner.generatePairs plan.scheme plan'.workers.values
      (b.provisioner.generatePairs plan.scheme c.members source).2).1.outcome = .ok n'.notaries :=
    staged'.notaries_eq_ok scheme rfl
  have distinct := planned'.distinct
  rw [values] at notaries' distinct
  obtain ⟨pair, keys⟩ := Provisioner.entries_of_append distinct notaries notaries'
  have entries := entriesFrom_of_encodeParameters planned staged.parameters
  have entries' := entriesFrom_of_encodeParameters planned' staged'.parameters
  rw [declared] at entries'
  obtain ⟨first, rest, made, -, split⟩ := Parameters.entriesFrom_append.mp entries'
  have kept := Parameters.entriesFrom_of_prefix ⟨_, workers.symm⟩ ⟨_, keys.symm⟩ entries
  obtain rfl : n.groupParameters = first := Except.ok.inj (kept.symm.trans made)
  refine ⟨members, ⟨worker, pair, ?_, keys⟩, ⟨rest, split.symm⟩, schemeName⟩
  rw [staged.workers, staged'.workers, workers]

theorem revised_of_staged {i : Nat} (place : c.notaries[i]? = some old)
    (same : old.service = d.service) (staged : Staged b c source plan n)
    (staged' : Staged b (c.withDeclaration d) source plan' n') :
    n.Revised n' i old.versions.val d.versions.val := by
  have planned := plan_eq_ok staged.made
  have planned' := plan_eq_ok staged'.made
  obtain ⟨split, replaced, length⟩ := NetworkConfig.redeclare_at c.services_nodup place same
  have notaries : (c.withDeclaration d).notaries =
      c.notaries.take i ++ d :: c.notaries.drop (i + 1) := replaced
  have declared : d.service ∈ c.services := List.mem_map.mpr ⟨old, List.mem_of_getElem? place, same⟩
  have services : (c.withDeclaration d).services = c.services :=
    (NetworkConfig.services_redeclare d c.notaries).trans (if_pos declared)
  have names' := planned'.workers
  rw [services] at names'
  have workers := planned.workers.unique names'
  obtain ⟨scheme, members, schemeName⟩ := staged.same_members staged' rfl rfl
  have keys' : (b.provisioner.generatePairs plan.scheme plan.workers.values
      (b.provisioner.generatePairs plan.scheme c.members source).2).1.outcome =
        .ok n'.notaries := by
    rw [← workers]
    exact staged'.notaries_eq_ok scheme rfl
  have keys := staged.notaries_eq_ok rfl rfl
  obtain sameKeys : n.notaries = n'.notaries := Except.ok.inj (keys.symm.trans keys')
  have entries := entriesFrom_of_encodeParameters planned staged.parameters
  have entries' := entriesFrom_of_encodeParameters planned' staged'.parameters
  rw [split] at entries
  rw [notaries, workers, ← sameKeys] at entries'
  obtain ⟨front, back, whole, whole', others⟩ :=
    Parameters.entriesFrom_revised same entries entries'
  rw [length, Nat.zero_add] at whole whole' others
  refine ⟨members, sameKeys.symm, ?_, ?_, schemeName⟩
  · rw [staged.workers, staged'.workers, workers]
  · exact ⟨front, _, _, back, whole, whole', Parameters.areVersions_versionEntries i old,
      Parameters.areVersions_versionEntries i d, others⟩

variable {registry : SchemeRegistry} {naming : Option WorkerNaming}

/-- **A declaration leaves all that comes before it.** Built from one seed, the network with a new
service is the other one with one worker more, and the network of other versions differs from it in
the entries of these versions alone. RSA keys are excepted, for which the environment may give other
moduli the second time. -/
theorem build_withNotary {service : Record.Given Identity} {versions : List Json.Value}
    {modulus modulus' : Nat → Nat} {seed : Random.Seed}
    (other : ∀ scheme, registry.find? c.schemeName.val = some scheme → ¬ scheme.MakesRsa)
    (changed : c.withNotary service versions = .ok c')
    (built : ((choosing registry naming modulus).build c (.seeded (.start seed))).1.outcome = .ok n)
    (built' : ((choosing registry naming modulus').build c' (.seeded (.start seed))).1.outcome =
      .ok n') :
    ∃ d : NotaryDeclaration, NotaryDeclaration.readIdentity service = .ok d.service ∧
      NotaryDeclaration.readVersions (.array versions) = .ok d.versions ∧
      (d.service ∉ c.services → n.Extends n' d.service) ∧
      ∀ i old, c.notaries[i]? = some old → old.service = d.service →
        n.Revised n' i old.versions.val d.versions.val := by
  obtain ⟨d, identity, numbers, rfl⟩ := NetworkConfig.withNotary_eq_ok changed
  obtain ⟨plan, staged⟩ := exists_staged built
  obtain ⟨plan', staged'⟩ := exists_staged built'
  have found : registry.find? c.schemeName.val = some plan'.scheme :=
    (plan_eq_ok staged'.made).scheme
  have same : (choosing registry naming modulus).Staged (c.withDeclaration d)
      (.seeded (.start seed)) plan' n' := Staged.congr (other plan'.scheme found) staged'
  refine ⟨d, identity, numbers, ?_, ?_⟩
  · intro new
    exact extends_of_staged new staged same
  · intro i old place service
    exact revised_of_staged place service staged same

/-- A network with the lighthouse for its member and the harbour for its notary. -/
def port : NetworkConfig :=
  ⟨[lighthouse], [⟨harbour, ⟨[11], by decide⟩⟩], NetworkConfig.defaultSchemeName, by decide,
    by decide⟩

def extendedPort : NetworkConfig := port.withDeclaration ⟨Identity.awkward, ⟨[5, 9], by decide⟩⟩

def renewedPort : NetworkConfig := port.withDeclaration ⟨harbour, ⟨[8], by decide⟩⟩

theorem spelled_harbour (versions : ProtocolVersions)
    (small : ∀ v ∈ versions.val, v < Text.leastLonger 2) :
    (⟨harbour, versions⟩ : NotaryDeclaration).Spelled :=
  .of_small (show harbour.Renderable from ⟨_, rfl⟩) small

theorem spelled_port : ∀ d ∈ port.notaries, d.Spelled :=
  List.forall_mem_singleton.mpr (spelled_harbour _ (by decide))

theorem spelled_extendedPort : ∀ d ∈ extendedPort.notaries, d.Spelled := by
  refine List.forall_mem_cons.mpr ⟨spelled_harbour _ (by decide), ?_⟩
  have text : Identity.awkward.Renderable := ⟨_, rfl⟩
  exact List.forall_mem_singleton.mpr (.of_small text (by decide))

theorem spelled_renewedPort : ∀ d ∈ renewedPort.notaries, d.Spelled :=
  List.forall_mem_singleton.mpr (spelled_harbour _ (by decide))

/-- The port, once with one notary more and once with another version of the harbour. -/
theorem build_withNotary_port :
    port.withNotary (.made Identity.awkward) [.int 5, .int 9] = .ok extendedPort ∧
    port.withNotary (.made harbour) [.int 8] = .ok renewedPort ∧
    (∀ scheme, SchemeRegistry.platform.find? port.schemeName.val = some scheme →
      ¬ scheme.MakesRsa) ∧
    ∃ n extended revised : Network,
      ((choosing .platform none fun _ => 15).build port
        (.seeded (.start (.number 1)))).1.outcome = .ok n ∧
      ((choosing .platform none fun _ => 21).build extendedPort
        (.seeded (.start (.number 1)))).1.outcome = .ok extended ∧
      ((choosing .platform none fun _ => 21).build renewedPort
        (.seeded (.start (.number 1)))).1.outcome = .ok revised ∧
      n.Extends extended Identity.awkward ∧ n.Revised revised 0 [11] [8] := by
  have added : port.withNotary (.made Identity.awkward) [.int 5, .int 9] = .ok extendedPort := rfl
  have changed : port.withNotary (.made harbour) [.int 8] = .ok renewedPort := rfl
  have other : ∀ scheme, SchemeRegistry.platform.find? port.schemeName.val = some scheme →
      ¬ scheme.MakesRsa := by
    intro scheme found
    exact (drawn_of_find? found (by decide)).not_makesRsa
  obtain ⟨n, built⟩ := exists_build (c := port) (fun _ => 15) rfl (by decide) spelled_port
    (.start (.number 1))
  obtain ⟨extended, built'⟩ := exists_build (c := extendedPort) (fun _ => 21) rfl (by decide)
    spelled_extendedPort (.start (.number 1))
  obtain ⟨revised, again⟩ := exists_build (c := renewedPort) (fun _ => 21) rfl (by decide)
    spelled_renewedPort (.start (.number 1))
  refine ⟨added, changed, other, n, extended, revised, built, built', again, ?_, ?_⟩
  · obtain ⟨d, identity, -, extends_new, -⟩ := build_withNotary other added built built'
    have service : Identity.awkward = d.service := Except.ok.inj identity
    rw [← service] at extends_new
    exact extends_new (by decide)
  · obtain ⟨d, identity, numbers, -, revises⟩ := build_withNotary other changed built again
    have service : harbour = d.service := Except.ok.inj identity
    have versions : [8] = d.versions.val := congrArg Subtype.val (Except.ok.inj numbers)
    rw [versions]
    exact revises 0 ⟨harbour, ⟨[11], by decide⟩⟩ rfl service

end Builder

end NotaryNetwork
