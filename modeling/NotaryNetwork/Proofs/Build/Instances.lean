import NotaryNetwork.Network.Fixture
import NotaryNetwork.Proofs.Build.Attempts

/-!
# Instances of fixtures

A fixture with a seed starts the stream anew for every instance, so all instances come to the same,
whatever their environments are, unless the keys are of RSA (`build_congr`). A fixture that shares a
builder passes the source on from one instance to the next: its instances are consecutive builds
(`outcomes_shared`), and each of them takes its keys from the stretch behind that of the one before
(`attempts_replicate`). The two are put together in `outcomes_of_supply`.
-/

namespace NotaryNetwork

open NotaryNetwork.Random (SeededStream)

variable {σ ε α β : Type}

/-! ## Builds of other environments -/

/-- Computations that go on in the same way from what the first step gives are the same. -/
theorem Job.bind_congr {x : Job σ ε α} {f g : α → Job σ ε β} {s : σ}
    (same : ∀ a, (x s).1.outcome = .ok a → f a (x s).2 = g a (x s).2) :
    (x >>= f) s = (x >>= g) s := by
  show bind x f s = bind x g s
  unfold bind
  rcases run : x s with ⟨⟨journal, outcome⟩, s'⟩
  cases outcome with
  | error e => rfl
  | ok a =>
    rw [run] at same
    have rest : f a s' = g a s' := same a rfl
    simp only [rest]

namespace Builder

variable {registry : SchemeRegistry} {naming : Option WorkerNaming} {modulus : Nat → Nat}
  {c : NetworkConfig} {stream : SeededStream}

/-- A network that is not of RSA keys is built in the same way whatever RSA moduli there are. -/
theorem build_congr
    (other : ∀ scheme, registry.find? c.schemeName.val = some scheme → ¬ scheme.MakesRsa)
    (modulus modulus' : Nat → Nat) (s : Random.Choice) :
    (choosing registry naming modulus).build c s = (choosing registry naming modulus').build c s := by
  unfold build
  refine Job.bind_congr fun plan made => ?_
  have found : registry.find? c.schemeName.val = some plan.scheme := (plan_eq_ok made).scheme
  have draws : (choosing registry naming modulus).provisioner.draw =
      (choosing registry naming modulus').provisioner.draw := rfl
  have keys := Provisioner.generatePairs_congr draws (other plan.scheme found)
  have workers : (choosing registry naming modulus).provisionNotaries plan =
      (choosing registry naming modulus').provisionNotaries plan := by
    unfold provisionNotaries
    simp only [keys]
  rw [keys, workers]
  rfl

/-! ## Builds of one configuration -/

/-- A build that leaves the source alone comes to the same again and again. -/
theorem outcome_of_fixed {b : Builder σ} {s : σ} (fixed : (b.build c s).2 = s) {count : Nat} :
    ∀ a ∈ b.attempts (List.replicate count c) s, a.outcome = (b.build c s).1.outcome := by
  induction count with
  | zero => exact fun a member => nomatch member
  | succ count ih =>
    intro a member
    rw [List.replicate_succ, attempts, fixed] at member
    rcases List.mem_cons.mp member with rfl | later
    · rfl
    · exact ih a later

/-- **An attempt that succeeds comes behind others that have succeeded too, and takes its keys from
the stretch behind theirs.** -/
theorem attempts_replicate (naming : Option WorkerNaming) (modulus : Nat → Nat)
    (texts : ∀ s ∈ c.services, s.Renderable)
    (other : ∀ scheme, registry.find? c.schemeName.val = some scheme → ¬ scheme.MakesRsa)
    (aligned : stream.Aligned) {count k : Nat} {a : Attempt Random.Choice} {n : Network}
    (place : ((choosing registry naming modulus).attempts (List.replicate count c)
      (.seeded stream))[k]? = some a) (ok : a.outcome = .ok n) :
    (∀ j < k, ∃ a' n', ((choosing registry naming modulus).attempts (List.replicate count c)
      (.seeded stream))[j]? = some a' ∧ a'.outcome = .ok n') ∧
    ∃ scheme, registry.find? c.schemeName.val = some scheme ∧
      n.TakenFrom c scheme stream.seed (stream.bytesDrawn +
        scheme.width * (c.members.length + c.notaries.length) * k) := by
  induction count generalizing stream k with
  | zero => cases place
  | succ count ih =>
    obtain ⟨next, state, aligned, seed, took⟩ :
        ∃ after : SeededStream, _ ∧ _ ∧ _ ∧ Took registry c stream after _ :=
      build_took (b := choosing registry naming modulus) rfl texts other aligned
    rw [List.replicate_succ, attempts, state] at place ⊢
    cases first : ((choosing registry naming modulus).build c (.seeded stream)).1.outcome with
    | error f =>
      rw [first] at took
      cases k with
      | zero =>
        cases place
        rw [first] at ok
        cases ok
      | succ k =>
        rw [List.getElem?_cons_succ] at place
        have later := List.mem_of_getElem? place
        cases took with
        | failed early =>
          -- The stream is left alone, so all that comes later fails in the same way.
          have fails := outcome_of_fixed state a later
          rw [first, ok] at fails
          cases fails
        | unencoded late found drawn =>
          -- The declarations are not spelled, so they are encoded for no build.
          obtain ⟨config, outcome⟩ := of_mem_attempts later
          rw [List.eq_of_mem_replicate config, ok] at outcome
          have spelled := spelled_of_build outcome.symm
          have filled : ∀ key, 1 ≤ ((choosing registry naming modulus).encodeKey key).length :=
            Key.Pem.length_pos_encode
          exact absurd late (not_ofEncoding_of_spelled filled spelled first)
    | ok n' =>
      rw [first] at took
      cases took with
      | built found keys drawn =>
        cases k with
        | zero =>
          cases place
          rw [first] at ok
          cases ok
          exact ⟨fun j before => absurd before (Nat.not_lt_zero j), _, found, keys⟩
        | succ k =>
          obtain ⟨earlier, scheme, found', keys⟩ := ih aligned place
          rw [found] at found'
          cases found'
          refine ⟨fun j before => ?_, _, found, ?_⟩
          · cases j with
            | zero => exact ⟨_, n', rfl, rfl⟩
            | succ j => exact earlier j (Nat.lt_of_succ_lt_succ before)
          · rw [seed, drawn, Nat.add_assoc, Nat.add_comm (_ * _) (_ * k), ← Nat.mul_succ] at keys
            exact keys

end Builder

/-! ## Fixtures -/

namespace Fixture

open Builder (twoCities)

/-- What a fixture comes to when it is instantiated in one environment after the other. -/
def outcomes : Fixture → List Environment → List (Except Failure EmbeddedNetwork)
  | _, [] => []
  | f, env :: envs => (f.instantiate env).1.outcome :: (f.instantiate env).2.outcomes envs

variable {c : NetworkConfig} {scope : NetworkScope} {seed : Random.Seed}

/-- With a seed every instance is a build from the start of the stream. -/
theorem outcomes_seeded (envs : List Environment) :
    (⟨c, scope, .seeded seed⟩ : Fixture).outcomes envs = envs.map fun env =>
      (env.builder.build c (.seeded (.start seed))).1.outcome.map (⟨·, scope⟩) := by
  induction envs with
  | nil => rfl
  | cons env envs ih =>
    rw [List.map_cons, ← ih, ← bind_pure_eq_map]
    exact congrArg (· :: _) (Traced.outcome_bind _ _)

/-- **With a builder the instances are consecutive builds.** -/
theorem outcomes_shared (b : SourcedBuilder) (envs : List Environment) :
    (⟨c, scope, .shared b⟩ : Fixture).outcomes envs =
      (b.builder.attempts (List.replicate envs.length c) b.source).map fun a =>
        a.outcome.map (⟨·, scope⟩) := by
  induction envs generalizing b with
  | nil => rfl
  | cons env envs ih =>
    rw [List.length_cons, List.replicate_succ, Builder.attempts, List.map_cons,
      ← ih { b with source := (b.builder.build c b.source).2 }, ← bind_pure_eq_map]
    exact congrArg (· :: _) (Traced.outcome_bind _ _)

/-- Outcomes are those of consecutive builds of a builder on a seeded stream: each that succeeds has
its keys from the stretch behind that of the one before, and no byte serves two of them. -/
structure Successive (b : Builder Random.Choice) (c : NetworkConfig) (scope : NetworkScope)
    (seed : Random.Seed) (count : Nat) (outcomes : List (Except Failure EmbeddedNetwork)) :
    Prop where
  builds : outcomes =
    (b.attempts (List.replicate count c) (.seeded (.start seed))).map fun a =>
      a.outcome.map (⟨·, scope⟩)
  stretch : ∀ (k : Nat) e, outcomes[k]? = some (.ok e) →
    (∀ j < k, ∃ e', outcomes[j]? = some (.ok e')) ∧
    ∃ scheme, b.registry.find? c.schemeName.val = some scheme ∧
      e.network.TakenFrom c scheme seed.toBytes
        (scheme.width * (c.members.length + c.notaries.length) * k)
  apart : ∀ (i j key key' place : Nat) a a',
    (b.attempts (List.replicate count c) (.seeded (.start seed)))[i]? = some a →
    (b.attempts (List.replicate count c) (.seeded (.start seed)))[j]? = some a' →
    a.Uses b.registry key place → a'.Uses b.registry key' place → i = j ∧ key = key'

theorem successive_attempts {registry : SchemeRegistry} (naming : Option WorkerNaming)
    (modulus : Nat → Nat) (scope : NetworkScope) (texts : ∀ s ∈ c.services, s.Renderable)
    (other : ∀ scheme, registry.find? c.schemeName.val = some scheme → ¬ scheme.MakesRsa)
    (count : Nat) :
    Successive (.choosing registry naming modulus) c scope seed count
      (((Builder.choosing registry naming modulus).attempts (List.replicate count c)
        (.seeded (.start seed))).map fun a => a.outcome.map (⟨·, scope⟩)) := by
  have aligned := SeededStream.aligned_start seed
  refine ⟨rfl, ?_, ?_⟩
  · intro k e place
    rw [List.getElem?_map] at place
    obtain ⟨a, made, came⟩ := Option.map_eq_some_iff.mp place
    obtain ⟨n, ok, rfl⟩ := map_eq_ok.mp came
    obtain ⟨earlier, scheme, found, keys⟩ :=
      Builder.attempts_replicate naming modulus texts other aligned made ok
    have start : (SeededStream.start seed).bytesDrawn = 0 := rfl
    rw [start, Nat.zero_add] at keys
    refine ⟨fun j before => ?_, scheme, found, keys⟩
    obtain ⟨a', n', made', ok'⟩ := earlier j before
    refine ⟨⟨n', scope⟩, ?_⟩
    rw [List.getElem?_map, made', Option.map_some, ok']
    rfl
  · intro i j key key' place a a' first second uses uses'
    have texts : ∀ c' ∈ List.replicate count c, ∀ s ∈ c'.services, s.Renderable := by
      intro c' hc'
      rw [List.eq_of_mem_replicate hc']
      exact texts
    have other : ∀ c' ∈ List.replicate count c, ∀ scheme,
        registry.find? c'.schemeName.val = some scheme → ¬ scheme.MakesRsa := by
      intro c' hc'
      rw [List.eq_of_mem_replicate hc']
      exact other
    exact Builder.attempts_apart rfl texts other aligned first second uses uses'

/-- **Instances with one seed are all the same, in all environments, and instances that share a
seeded builder are consecutive builds.** RSA keys are excepted, which come from the environment. -/
theorem outcomes_of_supply (c : NetworkConfig) (scope : NetworkScope) (seed : Random.Seed) :
    ((∀ scheme, SchemeRegistry.platform.find? c.schemeName.val = some scheme →
        ¬ scheme.MakesRsa) →
      ∃ f, make? c scope none (some seed) = some f ∧ ∀ (env : Environment) envs,
        f.outcomes envs = List.replicate envs.length
          ((env.builder.build c (.seeded (.start seed))).1.outcome.map (⟨·, scope⟩))) ∧
    ∀ registry naming modulus, (∀ s ∈ c.services, s.Renderable) →
      (∀ scheme, registry.find? c.schemeName.val = some scheme → ¬ scheme.MakesRsa) →
      ∃ f, make? c scope (some ⟨.choosing registry naming modulus, .seeded (.start seed)⟩) none =
          some f ∧
        ∀ envs, Successive (.choosing registry naming modulus) c scope seed envs.length
          (f.outcomes envs) := by
  constructor
  · intro plain
    refine ⟨_, rfl, fun env envs => ?_⟩
    rw [outcomes_seeded, List.eq_replicate_iff, List.length_map]
    refine ⟨rfl, fun outcome member => ?_⟩
    obtain ⟨env', -, rfl⟩ := List.mem_map.mp member
    have builder (env : Environment) : env.builder = .choosing .platform none env.rsaModulus := rfl
    rw [builder env', builder env, Builder.build_congr plain env'.rsaModulus env.rsaModulus]
  · intro registry naming modulus texts other
    refine ⟨_, rfl, fun envs => ?_⟩
    rw [outcomes_shared]
    exact successive_attempts naming modulus scope texts other envs.length

/-- Fixtures of two cities: with a seed all their instances are one network. -/
theorem outcomes_of_supply_twoCities :
    (∀ s ∈ twoCities.services, s.Renderable) ∧
    (∀ scheme, SchemeRegistry.platform.find? twoCities.schemeName.val = some scheme →
      ¬ scheme.MakesRsa) ∧
    (∃ f n, make? twoCities .perTest none (some (.number 1)) = some f ∧
      ∀ envs, f.outcomes envs = List.replicate envs.length (.ok ⟨n, .perTest⟩)) ∧
    ∃ f, make? twoCities .perTest
        (some ⟨.choosing .platform none fun _ => 0, .seeded (.start (.number 1))⟩) none = some f ∧
      ∀ envs, Successive (.choosing .platform none fun _ => 0) twoCities .perTest (.number 1)
        envs.length (f.outcomes envs) := by
  have texts := Builder.renderable_twoCities
  have plain : ∀ scheme, SchemeRegistry.platform.find? twoCities.schemeName.val = some scheme →
      ¬ scheme.MakesRsa := fun scheme => Builder.not_makesRsa_twoCities
  obtain ⟨seeded, shared⟩ := outcomes_of_supply twoCities .perTest (.number 1)
  obtain ⟨f, made, same⟩ := seeded plain
  obtain ⟨n, built⟩ := Builder.exists_build (c := twoCities) _ rfl (by decide)
    Builder.spelled_twoCities (.start (.number 1))
  refine ⟨texts, plain, ⟨f, n, made, fun envs => ?_⟩, shared .platform none _ texts plain⟩
  have one : (⟨fun _ => 0, fun _ => 0⟩ : Environment).builder =
      .choosing .platform none fun _ => 0 := rfl
  rw [same ⟨fun _ => 0, fun _ => 0⟩ envs, one, built]
  rfl

end Fixture

end NotaryNetwork
