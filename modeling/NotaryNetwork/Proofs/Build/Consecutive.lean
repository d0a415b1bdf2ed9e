import NotaryNetwork.Proofs.Build.Network
import NotaryNetwork.Proofs.Build.Recipe
import NotaryNetwork.Proofs.Build.Seeded
import NotaryNetwork.Proofs.Random.Stream

/-!
# Keys from consecutive stretches

A builder on a seeded stream takes the keys of a network from consecutive stretches of the stream:
those of the members in order, then those of the workers (`build_took`). A build that fails leaves
the stream alone, unless what fails is the encoding of the parameters: it comes after the keys, which
have taken their bytes by then. Any source that goes on answering gives a network
(`exists_build_of_keeps`), if it is planned and all texts are there.
-/

namespace NotaryNetwork

open NotaryNetwork.Random (SeededStream window streamByte)
open Provisioner (pairsOf)

variable {σ : Type}

/-! ## Answers of a stream -/

/-- The bytes of the key with a number, from a place of a stream on. -/
def KeyScheme.keyBytes (scheme : KeyScheme) (seed : Bytes) (start key : Nat) : Bytes :=
  window seed (start + scheme.width * key) scheme.width

/-- The bytes of some keys in turn. -/
def KeyScheme.keyRun (scheme : KeyScheme) (seed : Bytes) (start first count : Nat) : List Bytes :=
  (List.range' first count).map (scheme.keyBytes seed start)

theorem KeyScheme.length_keyRun (scheme : KeyScheme) (seed : Bytes) (start first count : Nat) :
    (scheme.keyRun seed start first count).length = count := by
  rw [keyRun, List.length_map, List.length_range']

theorem KeyScheme.getElem?_keyRun (scheme : KeyScheme) (seed : Bytes) (start first : Nat)
    {count k : Nat} (inside : k < count) : (scheme.keyRun seed start first count)[k]? =
      some (scheme.keyBytes seed start (first + k)) := by
  rw [keyRun, List.getElem?_map, List.getElem?_range' inside, Nat.one_mul]
  rfl

/-- The bytes of a key make one. -/
theorem KeyScheme.exists_pair_of_keyBytes {scheme : KeyScheme} {recipe : Recipe}
    (found : scheme.recipe? = some recipe) (seed : Bytes) (start key : Nat) :
    ∃ pair, scheme.pairOf? (scheme.keyBytes seed start key) = some pair ∧
      scheme.Makes (scheme.keyBytes seed start key) pair := by
  have enough : (scheme.keyBytes seed start key).length = recipe.width := by
    rw [(KeyScheme.of_recipe? found).width]
    exact Random.length_window _ _ _
  obtain ⟨pair, made⟩ := KeyScheme.exists_pairOf? found enough
  exact ⟨pair, made, KeyScheme.makes_of_pairOf? made⟩

/-- A byte lies in the stretch of one key only. -/
theorem KeyScheme.stretch_unique {scheme : KeyScheme} {start key key' place : Nat}
    (lower : start + scheme.width * key ≤ place) (upper : place < start + scheme.width * (key + 1))
    (lower' : start + scheme.width * key' ≤ place)
    (upper' : place < start + scheme.width * (key' + 1)) : key = key' := by
  have less : scheme.width * key < scheme.width * (key' + 1) := by omega
  have less' : scheme.width * key' < scheme.width * (key + 1) := by omega
  have := Nat.lt_of_mul_lt_mul_left less
  have := Nat.lt_of_mul_lt_mul_left less'
  omega

/-- A stream that has given the bytes of the keys before goes on with those of the next keys. -/
theorem serves_keys (scheme : KeyScheme) {start : Nat} (first count : Nat) {stream : SeededStream}
    (aligned : stream.Aligned) (place : stream.bytesDrawn = start + scheme.width * first) :
    ∃ after : SeededStream,
      Serves Random.Choice.draw scheme.width (.seeded stream)
        (scheme.keyRun stream.seed start first count) (.seeded after) ∧
      after.Aligned ∧ after.seed = stream.seed ∧
      after.bytesDrawn = start + scheme.width * (first + count) := by
  induction count generalizing stream first with
  | zero => exact ⟨stream, .none _, aligned, rfl, place⟩
  | succ count ih =>
    obtain ⟨next, answer, aligned, seed, drawn⟩ :=
      SeededStream.draw_of_aligned aligned scheme.width
    have answer : Random.Choice.draw scheme.width (.seeded stream) =
        (.ok (scheme.keyBytes stream.seed start first), .seeded next) := by
      rw [Random.Choice.draw, answer, place]
      rfl
    have place : next.bytesDrawn = start + scheme.width * (first + 1) := by
      rw [drawn, place, Nat.mul_succ, Nat.add_assoc]
    obtain ⟨after, later, aligned, same, total⟩ := ih _ aligned place
    rw [seed] at later
    refine ⟨after, ?_, aligned, same.trans seed, ?_⟩
    · rw [KeyScheme.keyRun, List.range'_succ, List.map_cons]
      exact .next answer (Random.length_window _ _ _) later
    · rw [total, Nat.add_assoc, Nat.add_comm 1]

/-! ## Builds from answers -/

namespace Builder

variable {b : Builder σ} {c : NetworkConfig} {plan : Plan} {s t u : σ}

/-- Answers for all members and workers make the keys of a network. -/
theorem build_of_serves {recipe : Recipe} (made : (b.plan c).outcome = .ok plan)
    (found : plan.scheme.recipe? = some recipe) {memberBytes workerBytes : List Bytes}
    (members : Serves b.provisioner.draw recipe.width s memberBytes t)
    (memberCount : memberBytes.length = c.members.length)
    (workers : Serves b.provisioner.draw recipe.width t workerBytes u)
    (workerCount : workerBytes.length = plan.workers.values.length) :
    (b.build c s).1.outcome =
        (b.encodeParameters c plan
          (.ofList (pairsOf plan.scheme plan.workers.values workerBytes))).outcome.map
          (fun parameters => ⟨.ofList (pairsOf plan.scheme c.members memberBytes),
            .ofList (pairsOf plan.scheme plan.workers.values workerBytes), plan.workers,
            parameters, plan.scheme.codeName⟩) ∧
      (b.build c s).2 = u := by
  obtain ⟨memberKeys, between⟩ := Provisioner.generatePairs_of_serves found members memberCount
  obtain ⟨workerKeys, last⟩ := Provisioner.generatePairs_of_serves found workers workerCount
  obtain ⟨outcome, state⟩ := provisionNotaries_apply b plan t
  rw [workerKeys] at outcome
  rw [last] at state
  rw [← between] at outcome state
  obtain ⟨built, after⟩ := build_of_keys made memberKeys outcome
  exact ⟨built, after.trans state⟩

/-- From a source that goes on answering a network is built, if it is planned and all declarations
are spelled. -/
theorem exists_build_of_keeps {recipe : Recipe} (Kept : σ → Prop)
    (made : (b.plan c).outcome = .ok plan) (found : plan.scheme.recipe? = some recipe)
    (step : ∀ s, Kept s → ∃ bytes t, b.provisioner.draw recipe.width s = (.ok bytes, t) ∧
      bytes.length = recipe.width ∧ Kept t)
    (filled : ∀ key, 1 ≤ (b.encodeKey key).length) (spelled : ∀ d ∈ c.notaries, d.Spelled)
    (kept : Kept s) : ∃ n, (b.build c s).1.outcome = .ok n := by
  have planned := plan_eq_ok made
  obtain ⟨memberBytes, t, members, memberCount, kept⟩ :=
    Serves.exists_of_keeps step c.members.length kept
  obtain ⟨workerBytes, u, workers, workerCount, -⟩ :=
    Serves.exists_of_keeps step plan.workers.values.length kept
  have keys := Provisioner.generatePairs_eq_ok planned.distinct
    (Provisioner.generatePairs_of_serves found workers workerCount).1
  obtain ⟨parameters, encoded⟩ :=
    (exists_encodeParameters_iff planned keys).mpr ⟨spelled, fun _ _ pair _ => filled _⟩
  have outcome := (build_of_serves made found members memberCount workers workerCount).1
  rw [encoded] at outcome
  exact ⟨_, outcome⟩

end Builder

/-! ## Networks from a stream -/

/-- The keys of a network are those of consecutive stretches of a stream: the members' first, and
then the workers' in the order of their services. -/
structure Network.TakenFrom (n : Network) (c : NetworkConfig) (scheme : KeyScheme) (seed : Bytes)
    (start : Nat) : Prop where
  members : ∀ (m : Nat) i, c.members[m]? = some i → ∃ pair, n.members.get? i = some pair ∧
    scheme.Makes (scheme.keyBytes seed start m) pair
  workers : ∀ (w : Nat) s, c.services[w]? = some s → ∃ worker pair, n.workerFor s = .ok worker ∧
    n.notaries.get? worker = some pair ∧
    scheme.Makes (scheme.keyBytes seed start (c.members.length + w)) pair

theorem Topology.Names.exists_worker {naming : WorkerNaming} {services : List Identity}
    {workers : Table Identity Identity} (h : Topology.Names naming services workers) {w : Nat}
    {s : Identity} (place : services[w]? = some s) :
    ∃ worker, workers.get? s = some worker ∧ workers.values[w]? = some worker := by
  rw [← h.keys, Table.keys_eq_map, List.getElem?_map] at place
  obtain ⟨⟨s, worker⟩, entry, rfl⟩ := Option.map_eq_some_iff.mp place
  refine ⟨worker, Table.get?_eq_some_iff.mpr (List.mem_of_getElem? entry), ?_⟩
  rw [Table.values_eq_map, List.getElem?_map, entry]
  rfl

/-- A build leaves a stream alone and fails, or it takes the next bytes of the stream for the keys of
all members and workers. Then it makes a network, or fails in the encoding of the parameters. -/
inductive Took (registry : SchemeRegistry) (c : NetworkConfig) (stream : SeededStream) :
    SeededStream → Except Failure Network → Prop
  | failed {f : Failure} (early : ¬ f.OfEncoding) : Took registry c stream stream (.error f)
  | unencoded {after : SeededStream} {f : Failure} {scheme : KeyScheme} (late : f.OfEncoding)
      (found : registry.find? c.schemeName.val = some scheme)
      (drawn : after.bytesDrawn =
        stream.bytesDrawn + scheme.width * (c.members.length + c.notaries.length)) :
      Took registry c stream after (.error f)
  | built {after : SeededStream} {n : Network} {scheme : KeyScheme}
      (found : registry.find? c.schemeName.val = some scheme)
      (keys : n.TakenFrom c scheme stream.seed stream.bytesDrawn)
      (drawn : after.bytesDrawn =
        stream.bytesDrawn + scheme.width * (c.members.length + c.notaries.length)) :
      Took registry c stream after (.ok n)

theorem Took.grows {registry : SchemeRegistry} {c : NetworkConfig} {stream after : SeededStream}
    {outcome : Except Failure Network} (took : Took registry c stream after outcome) :
    stream.bytesDrawn ≤ after.bytesDrawn := by
  cases took with
  | failed early => exact Nat.le_refl _
  | unencoded late found drawn => omega
  | built found keys drawn => omega

namespace Builder

/-- The builder of a registry and a naming that draws on a choice of sources. -/
def choosing (registry : SchemeRegistry) (naming : Option WorkerNaming) (modulus : Nat → Nat) :
    Builder Random.Choice :=
  ⟨registry, .choosing modulus, naming, Key.Pem.encode⟩

variable {b : Builder Random.Choice} {c : NetworkConfig} {plan : Plan} {stream : SeededStream}

theorem length_workers {σ : Type} {b : Builder σ} (planned : Planned b c plan) :
    plan.workers.values.length = c.notaries.length := by
  have keys := congrArg List.length planned.workers.keys
  rw [Table.keys_eq_map, List.length_map, NetworkConfig.services, List.length_map] at keys
  rw [Table.values_eq_map, List.length_map, keys]

/-- Keys from consecutive stretches make a network that is taken from the stream. -/
theorem takenFrom_of_recipe {σ : Type} {b : Builder σ} {recipe : Recipe} {seed : Bytes}
    {start : Nat} (planned : Planned b c plan) (found : plan.scheme.recipe? = some recipe)
    (parameters : List GroupParameter) :
    Network.TakenFrom
      ⟨.ofList (pairsOf plan.scheme c.members
          (plan.scheme.keyRun seed start 0 c.members.length)),
        .ofList (pairsOf plan.scheme plan.workers.values
          (plan.scheme.keyRun seed start c.members.length c.notaries.length)),
        plan.workers, parameters, plan.scheme.codeName⟩ c plan.scheme seed start := by
  constructor
  · intro m i place
    obtain ⟨inside, -⟩ := List.getElem?_eq_some_iff.mp place
    have answer := plan.scheme.getElem?_keyRun seed start 0 inside
    obtain ⟨pair, made, makes⟩ := KeyScheme.exists_pair_of_keyBytes found seed start m
    rw [Nat.zero_add] at answer
    exact ⟨pair, Provisioner.get?_pairsOf c.members_nodup place answer made, makes⟩
  · intro w s place
    obtain ⟨inside, -⟩ := List.getElem?_eq_some_iff.mp place
    rw [NetworkConfig.services, List.length_map] at inside
    obtain ⟨worker, own, value⟩ := planned.workers.exists_worker place
    obtain ⟨pair, made, makes⟩ :=
      KeyScheme.exists_pair_of_keyBytes found seed start (c.members.length + w)
    exact ⟨worker, pair, Network.workerFor_eq_ok.mpr own, Provisioner.get?_pairsOf
      planned.distinct value (plan.scheme.getElem?_keyRun seed start _ inside) made, makes⟩

/-- With a recipe all keys are made, and then the encoding decides. -/
theorem build_of_recipe {recipe : Recipe} (draws : b.provisioner.draw = Random.Choice.draw)
    (made : (b.plan c).outcome = .ok plan) (found : plan.scheme.recipe? = some recipe)
    (texts : ∀ s ∈ c.services, s.Renderable) (aligned : stream.Aligned) :
    ∃ after : SeededStream, (b.build c (.seeded stream)).2 = .seeded after ∧
      after.Aligned ∧ after.seed = stream.seed ∧
      after.bytesDrawn =
        stream.bytesDrawn + plan.scheme.width * (c.members.length + c.notaries.length) ∧
      ((∃ n, (b.build c (.seeded stream)).1.outcome = .ok n ∧
          n.TakenFrom c plan.scheme stream.seed stream.bytesDrawn) ∨
        ∃ f, (b.build c (.seeded stream)).1.outcome = .error f ∧ f.OfEncoding) := by
  have planned := plan_eq_ok made
  have width := (KeyScheme.of_recipe? found).width
  obtain ⟨between, memberBytes, aligned, seed, drawn⟩ :=
    serves_keys plan.scheme 0 c.members.length aligned rfl
  obtain ⟨after, workerBytes, aligned, seed', drawn'⟩ :=
    serves_keys plan.scheme _ c.notaries.length aligned drawn
  rw [seed, Nat.zero_add] at workerBytes
  rw [← width, ← draws] at memberBytes workerBytes
  rw [Nat.zero_add] at drawn'
  have memberCount := plan.scheme.length_keyRun stream.seed stream.bytesDrawn 0 c.members.length
  have workerCount := (plan.scheme.length_keyRun stream.seed stream.bytesDrawn c.members.length
    c.notaries.length).trans (length_workers planned).symm
  obtain ⟨outcome, state⟩ := build_of_serves made found memberBytes memberCount workerBytes
    workerCount
  have keys := Provisioner.generatePairs_eq_ok planned.distinct
    (Provisioner.generatePairs_of_serves found workerBytes workerCount).1
  refine ⟨after, state, aligned, seed'.trans seed, drawn', ?_⟩
  rw [outcome]
  cases encoded : (b.encodeParameters c plan (.ofList (pairsOf plan.scheme plan.workers.values
      (plan.scheme.keyRun stream.seed stream.bytesDrawn c.members.length
        c.notaries.length)))).outcome with
  | ok ps => exact .inl ⟨_, rfl, takenFrom_of_recipe planned found ps⟩
  | error f => exact .inr ⟨f, rfl, encodeParameters_ofEncoding planned keys texts encoded⟩

/-- Without a recipe and without RSA keys only a network without participants is built. -/
theorem took_of_sourceless (made : (b.plan c).outcome = .ok plan)
    (found : plan.scheme.recipe? = none) (other : ¬ plan.scheme.MakesRsa) :
    (b.build c (.seeded stream)).2 = .seeded stream ∧
      Took b.registry c stream stream (b.build c (.seeded stream)).1.outcome := by
  have planned := plan_eq_ok made
  have alone := fun is => Provisioner.generatePairs_of_sourceless (p := b.provisioner) found other is
    (.seeded stream)
  obtain ⟨memberState, members⟩ := alone c.members
  obtain ⟨workerState, workers⟩ := alone plan.workers.values
  obtain ⟨outcome', state'⟩ := provisionNotaries_apply b plan (.seeded stream)
  rw [← outcome'] at workers
  rw [← state', ← memberState] at workerState
  rcases members with ⟨memberless, memberKeys⟩ | ⟨f, fails⟩
  · rw [← memberState] at workers
    rcases workers with ⟨workerless, workerKeys⟩ | ⟨f, fails⟩
    · obtain ⟨outcome, state⟩ := build_of_keys made memberKeys workerKeys
      have serviceless := notaries_eq_nil planned workerless
      rw [encodeParameters_of_nil workerless] at outcome
      rw [outcome]
      refine ⟨state.trans (workerState.trans memberState), .built planned.scheme ⟨?_, ?_⟩ ?_⟩
      · intro m i place
        rw [memberless] at place
        cases place
      · intro w s place
        rw [NetworkConfig.services, serviceless] at place
        cases place
      · rw [memberless, serviceless]
        rfl
    · obtain ⟨refusal, rfl⟩ := provisionNotaries_eq_error fails
      obtain ⟨outcome, state⟩ := build_of_notaries_error made memberKeys fails
      rw [outcome]
      exact ⟨state.trans (workerState.trans memberState), .failed (refusal.not_ofEncoding _)⟩
  · obtain ⟨refusal, rfl⟩ := Provisioner.generatePairs_eq_error fails
    obtain ⟨outcome, state⟩ := build_of_members_error made fails
    rw [outcome]
    exact ⟨state.trans memberState, .failed (refusal.not_ofEncoding _)⟩

/-- **A build takes the next bytes of a stream for its keys, or fails before and leaves the stream as
it is.** -/
theorem build_took (draws : b.provisioner.draw = Random.Choice.draw)
    (texts : ∀ s ∈ c.services, s.Renderable)
    (other : ∀ scheme, b.registry.find? c.schemeName.val = some scheme → ¬ scheme.MakesRsa)
    (aligned : stream.Aligned) : ∃ after : SeededStream,
      (b.build c (.seeded stream)).2 = .seeded after ∧ after.Aligned ∧ after.seed = stream.seed ∧
      Took b.registry c stream after (b.build c (.seeded stream)).1.outcome := by
  cases made : (b.plan c).outcome with
  | error f =>
    rw [build_of_refusal made]
    exact ⟨stream, rfl, aligned, rfl, .failed (plan_not_ofEncoding made)⟩
  | ok plan =>
    have resolved : b.registry.find? c.schemeName.val = some plan.scheme := (plan_eq_ok made).scheme
    cases found : plan.scheme.recipe? with
    | some recipe =>
      obtain ⟨after, state, aligned, seed, drawn, ⟨n, ok, keys⟩ | ⟨f, fails, late⟩⟩ :=
        build_of_recipe draws made found texts aligned
      · rw [ok]
        exact ⟨after, state, aligned, seed, .built resolved keys drawn⟩
      · rw [fails]
        exact ⟨after, state, aligned, seed, .unencoded late resolved drawn⟩
    | none =>
      obtain ⟨state, took⟩ := took_of_sourceless made found (other plan.scheme resolved)
      exact ⟨stream, state, aligned, rfl, took⟩

/-- All declarations of a network that is built are spelled. -/
theorem spelled_of_build {σ : Type} {b : Builder σ} {source : σ} {n : Network}
    (h : (b.build c source).1.outcome = .ok n) : ∀ d ∈ c.notaries, d.Spelled := by
  obtain ⟨plan, planned, -, keys, -, encoded, -⟩ := build_eq_ok h
  exact ((exists_encodeParameters_iff planned keys).mp ⟨_, encoded⟩).1

/-- Where all declarations are spelled, no encoding fails, unless keys are encoded by nothing. -/
theorem not_ofEncoding_of_spelled {σ : Type} {b : Builder σ} {source : σ}
    (filled : ∀ key, 1 ≤ (b.encodeKey key).length) (spelled : ∀ d ∈ c.notaries, d.Spelled)
    {f : Failure} (h : (b.build c source).1.outcome = .error f) : ¬ f.OfEncoding := by
  unfold build at h
  rcases Job.bind_eq_error h with refused | ⟨plan, made, h⟩
  · exact plan_not_ofEncoding refused
  have planned := plan_eq_ok made
  rcases Job.bind_eq_error h with members | ⟨members, -, h⟩
  · obtain ⟨refusal, rfl⟩ := Provisioner.generatePairs_eq_error members
    exact refusal.not_ofEncoding _
  rcases Job.bind_eq_error h with notaries | ⟨notaries, notaryKeys, h⟩
  · obtain ⟨refusal, rfl⟩ := provisionNotaries_eq_error notaries
    exact refusal.not_ofEncoding _
  have keys := provisionNotaries_eq_ok planned.distinct notaryKeys
  obtain ⟨ps, encoded⟩ :=
    (exists_encodeParameters_iff planned keys).mpr ⟨spelled, fun _ _ pair _ => filled _⟩
  rcases Job.bind_eq_error h with unencoded | ⟨_, -, h⟩
  · cases encoded.symm.trans unencoded
  · cases h

/-- Plans of the platform are carried out if all declarations are spelled. -/
theorem exists_build (modulus : Nat → Nat)
    (made : ((choosing .platform none modulus).plan c).outcome.isOk = true)
    (drawn : c.schemeName.val ≠ KeyScheme.rsa.codeName) (spelled : ∀ d ∈ c.notaries, d.Spelled)
    (stream : SeededStream) :
    ∃ n, ((choosing .platform none modulus).build c (.seeded stream)).1.outcome = .ok n := by
  cases planned : ((choosing .platform none modulus).plan c).outcome with
  | error f =>
    rw [planned] at made
    cases made
  | ok plan =>
    obtain ⟨recipe, found⟩ := (drawn_of_find? (plan_eq_ok planned).scheme drawn).exists_recipe
    exact exists_build_of_keeps Random.Choice.IsSeeded planned found
      (fun _ seeded => Random.Choice.IsSeeded.exists_draw seeded recipe.width)
      Key.Pem.length_pos_encode spelled ⟨stream, rfl⟩

end Builder

end NotaryNetwork
