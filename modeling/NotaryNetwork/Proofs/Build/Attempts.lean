import NotaryNetwork.Proofs.Build.Consecutive

/-!
# Builds one after the other

Builds of configurations on one source, each going on with the source that the one before has left.
From a seeded stream every build that makes keys takes them from the bytes behind those given before
it (`attempts_took`), so no byte is used for two keys (`attempts_consecutive`).
-/

namespace NotaryNetwork

open NotaryNetwork.Random (SeededStream)

variable {σ : Type}

/-- A build of a sequence, with the source before and after it. -/
structure Attempt (σ : Type) where
  config : NetworkConfig
  before : σ
  outcome : Except Failure Network
  after : σ

/-- Builds of configurations one after the other, all on one source. -/
def Builder.attempts (b : Builder σ) : List NetworkConfig → σ → List (Attempt σ)
  | [], _ => []
  | c :: cs, s =>
    ⟨c, s, (b.build c s).1.outcome, (b.build c s).2⟩ :: b.attempts cs (b.build c s).2

theorem Builder.attempts_cons (b : Builder σ) (c : NetworkConfig) (cs : List NetworkConfig) (s : σ) :
    b.attempts (c :: cs) s =
      ⟨c, s, (b.build c s).1.outcome, (b.build c s).2⟩ :: b.attempts cs (b.build c s).2 := rfl

theorem Builder.of_mem_attempts {b : Builder σ} {cs : List NetworkConfig} {s : σ} {a : Attempt σ}
    (member : a ∈ b.attempts cs s) :
    a.config ∈ cs ∧ a.outcome = (b.build a.config a.before).1.outcome := by
  induction cs generalizing s with
  | nil => cases member
  | cons c cs ih =>
    rcases List.mem_cons.mp member with rfl | later
    · exact ⟨List.mem_cons_self, rfl⟩
    · obtain ⟨config, outcome⟩ := ih later
      exact ⟨List.mem_cons_of_mem c config, outcome⟩

namespace Attempt

variable {registry : SchemeRegistry} {a : Attempt Random.Choice} {stream after : SeededStream}
  {key key' place : Nat}

/-- A byte of the stream serves a key that an attempt has made, be it of a network or of a build
that has failed afterwards; members are counted before workers. -/
structure Uses (registry : SchemeRegistry) (a : Attempt Random.Choice) (key place : Nat) :
    Prop where
  exists_stretch : ∃ scheme stream, registry.find? a.config.schemeName.val = some scheme ∧
    a.before = .seeded stream ∧ stream.bytesDrawn + scheme.width * key ≤ place ∧
    place < stream.bytesDrawn + scheme.width * (key + 1)
  counted : key < a.config.members.length + a.config.notaries.length
  made : (∃ n, a.outcome = .ok n) ∨ a.after ≠ a.before

/-- What serves a key of an attempt lies between what was given before and after. -/
theorem Uses.between (uses : a.Uses registry key place) (before : a.before = .seeded stream)
    (left : a.after = .seeded after) (took : Took registry a.config stream after a.outcome) :
    stream.bytesDrawn ≤ place ∧ place < after.bytesDrawn := by
  obtain ⟨⟨scheme, stream', found, same, lower, upper⟩, counted, made⟩ := uses
  rw [before] at same
  cases same
  have last : scheme.width * (key + 1) ≤ _ := Nat.mul_le_mul_left scheme.width counted
  rw [before, left] at made
  generalize a.outcome = outcome at made took
  cases took with
  | failed early =>
    rcases made with ⟨n, ok⟩ | moved
    · cases ok
    · exact absurd rfl moved
  | unencoded late found' drawn =>
    rw [found] at found'
    cases found'
    omega
  | built found' keys drawn =>
    rw [found] at found'
    cases found'
    omega

/-- Within an attempt a byte serves one key. -/
theorem Uses.key_unique (uses : a.Uses registry key place) (uses' : a.Uses registry key' place) :
    key = key' := by
  obtain ⟨⟨scheme, stream, found, before, lower, upper⟩, -, -⟩ := uses
  obtain ⟨⟨scheme', stream', found', before', lower', upper'⟩, -, -⟩ := uses'
  rw [found] at found'
  rw [before] at before'
  cases found'
  cases before'
  exact KeyScheme.stretch_unique lower upper lower' upper'

end Attempt

namespace Builder

variable {b : Builder Random.Choice} {cs : List NetworkConfig} {stream : SeededStream}

section Sequence

variable (draws : b.provisioner.draw = Random.Choice.draw)
  (texts : ∀ c ∈ cs, ∀ s ∈ c.services, s.Renderable)
  (other : ∀ c ∈ cs, ∀ scheme,
    b.registry.find? c.schemeName.val = some scheme → ¬ scheme.MakesRsa)
  (aligned : stream.Aligned)

include draws texts other aligned

/-- Every build of a sequence goes on where the one before has come to. -/
theorem attempts_took : ∀ a ∈ b.attempts cs (.seeded stream),
    ∃ before after : SeededStream, a.before = .seeded before ∧ a.after = .seeded after ∧
      before.seed = stream.seed ∧ stream.bytesDrawn ≤ before.bytesDrawn ∧
      Took b.registry a.config before after a.outcome := by
  induction cs generalizing stream with
  | nil => exact fun a member => nomatch member
  | cons c cs ih =>
    obtain ⟨texts, laterTexts⟩ := List.forall_mem_cons.mp texts
    obtain ⟨other, laterOther⟩ := List.forall_mem_cons.mp other
    obtain ⟨next, state, aligned, seed, took⟩ := build_took draws texts other aligned
    have grows := took.grows
    intro a member
    rcases List.mem_cons.mp member with rfl | later
    · exact ⟨stream, next, rfl, state, rfl, Nat.le_refl _, took⟩
    · rw [state] at later
      obtain ⟨before, after, start, stop, same, further, took⟩ :=
        ih laterTexts laterOther aligned a later
      exact ⟨before, after, start, stop, same.trans seed, Nat.le_trans grows further, took⟩

/-- No attempt uses what was given before the first of them. -/
theorem le_of_uses {i key place : Nat} {a : Attempt Random.Choice}
    (member : (b.attempts cs (.seeded stream))[i]? = some a)
    (uses : a.Uses b.registry key place) : stream.bytesDrawn ≤ place := by
  obtain ⟨before, after, start, stop, -, further, took⟩ :=
    attempts_took draws texts other aligned a (List.mem_of_getElem? member)
  exact Nat.le_trans further (uses.between start stop took).1

/-- No two attempts use the same byte. -/
theorem attempts_apart {i j key key' place : Nat} {a a' : Attempt Random.Choice}
    (first : (b.attempts cs (.seeded stream))[i]? = some a)
    (second : (b.attempts cs (.seeded stream))[j]? = some a')
    (uses : a.Uses b.registry key place) (uses' : a'.Uses b.registry key' place) :
    i = j ∧ key = key' := by
  induction cs generalizing stream i j with
  | nil => cases first
  | cons c cs ih =>
    obtain ⟨texts, laterTexts⟩ := List.forall_mem_cons.mp texts
    obtain ⟨other, laterOther⟩ := List.forall_mem_cons.mp other
    obtain ⟨next, state, aligned, -, took⟩ := build_took draws texts other aligned
    unfold attempts at first second
    rw [state] at first second
    -- What a later attempt uses has not been given when the first one is done.
    cases i with
    | zero =>
      cases first
      have early := (uses.between rfl rfl took).2
      cases j with
      | zero =>
        cases second
        exact ⟨rfl, uses.key_unique uses'⟩
      | succ j =>
        have late := le_of_uses draws laterTexts laterOther aligned second uses'
        exact absurd early (Nat.not_lt.mpr late)
    | succ i =>
      cases j with
      | zero =>
        cases second
        have early := (uses'.between rfl rfl took).2
        have late := le_of_uses draws laterTexts laterOther aligned first uses
        exact absurd early (Nat.not_lt.mpr late)
      | succ j =>
        obtain ⟨same, keys⟩ := ih laterTexts laterOther aligned first second
        exact ⟨congrArg Nat.succ same, keys⟩

end Sequence

/-! ## Sequences from the start of a stream -/

/-- **Builds one after the other take their keys from consecutive stretches of a stream. Where they
fail they leave it alone, unless it is the encoding that fails, with all keys made. No byte is ever
used for two keys.** -/
theorem attempts_consecutive {b : Builder Random.Choice}
    (draws : b.provisioner.draw = Random.Choice.draw) (seed : Random.Seed)
    (cs : List NetworkConfig) (texts : ∀ c ∈ cs, ∀ s ∈ c.services, s.Renderable)
    (other : ∀ c ∈ cs, ∀ scheme,
      b.registry.find? c.schemeName.val = some scheme → ¬ scheme.MakesRsa) :
    (∀ a ∈ b.attempts cs (.seeded (.start seed)),
      ∃ before after : SeededStream, a.before = .seeded before ∧ a.after = .seeded after ∧
        before.seed = seed.toBytes ∧ Took b.registry a.config before after a.outcome) ∧
    ∀ (i j key key' place : Nat) a a',
      (b.attempts cs (.seeded (.start seed)))[i]? = some a →
      (b.attempts cs (.seeded (.start seed)))[j]? = some a' →
      a.Uses b.registry key place → a'.Uses b.registry key' place → i = j ∧ key = key' := by
  have aligned := SeededStream.aligned_start seed
  constructor
  · intro a member
    obtain ⟨before, after, start, stop, same, -, took⟩ :=
      attempts_took draws texts other aligned a member
    exact ⟨before, after, start, stop, same, took⟩
  · intro i j key key' place a a' first second uses uses'
    exact attempts_apart draws texts other aligned first second uses uses'

/-- The builder of the platform, on a choice of sources. -/
abbrev platform : Builder Random.Choice := choosing .platform none fun _ => 0

theorem not_makesRsa_twoCities {scheme : KeyScheme}
    (found : SchemeRegistry.platform.find? twoCities.schemeName.val = some scheme) :
    ¬ scheme.MakesRsa :=
  (drawn_of_find? found (by decide)).not_makesRsa

theorem spelled_twoCities : ∀ d ∈ twoCities.notaries, d.Spelled := by
  have small : ∀ d ∈ twoCities.notaries, ∀ v ∈ d.versions.val, v < Text.leastLonger 2 := by decide
  intro d hd
  exact .of_small (renderable_twoCities d.service (List.mem_map.mpr ⟨d, hd, rfl⟩)) (small d hd)

/-- What a network of two cities has taken from a stream. -/
theorem took_twoCities {before after : SeededStream} {outcome : Except Failure Network}
    {n : Network} (took : Took .platform twoCities before after outcome) (ok : outcome = .ok n) :
    after.bytesDrawn = before.bytesDrawn + 64 ∧
      n.TakenFrom twoCities .x25519 before.seed before.bytesDrawn := by
  cases took with
  | failed early => cases ok
  | unencoded late found drawn => cases ok
  | built found keys drawn =>
    cases ok
    cases found
    exact ⟨drawn, keys⟩

/-- The network of two cities is built twice from one stream, of 64 bytes each time. -/
theorem attempts_consecutive_twoCities :
    platform.provisioner.draw = Random.Choice.draw ∧
    (∀ c ∈ [twoCities, twoCities], ∀ s ∈ c.services, s.Renderable) ∧
    (∀ c ∈ [twoCities, twoCities], ∀ scheme,
      SchemeRegistry.platform.find? c.schemeName.val = some scheme → ¬ scheme.MakesRsa) ∧
    ∃ n n' between after,
      platform.attempts [twoCities, twoCities] (.seeded (.start (.number 1))) =
        [⟨twoCities, .seeded (.start (.number 1)), .ok n, .seeded between⟩,
          ⟨twoCities, .seeded between, .ok n', .seeded after⟩] ∧
      between.bytesDrawn = 64 ∧ after.bytesDrawn = 128 ∧
      n.TakenFrom twoCities .x25519 (Random.Seed.number 1).toBytes 0 ∧
      n'.TakenFrom twoCities .x25519 (Random.Seed.number 1).toBytes 64 := by
  have texts : ∀ c ∈ [twoCities, twoCities], ∀ s ∈ c.services, s.Renderable := by
    intro c hc
    obtain rfl : c = twoCities := by simpa using hc
    exact renderable_twoCities
  have other : ∀ c ∈ [twoCities, twoCities], ∀ scheme,
      SchemeRegistry.platform.find? c.schemeName.val = some scheme → ¬ scheme.MakesRsa := by
    intro c hc scheme found
    obtain rfl : c = twoCities := by simpa using hc
    exact not_makesRsa_twoCities found
  obtain ⟨attempts, -⟩ :=
    attempts_consecutive (b := platform) rfl (.number 1) [twoCities, twoCities] texts other
  have builds := exists_build (c := twoCities) (fun _ => 0) rfl (by decide) spelled_twoCities
  obtain ⟨_, between, start, middle, seed, took⟩ := attempts _ List.mem_cons_self
  obtain ⟨before, after, middle', stop, seed', took'⟩ :=
    attempts _ (List.mem_cons_of_mem _ List.mem_cons_self)
  dsimp only at start middle middle' stop took took'
  rw [middle] at middle' stop took'
  cases start
  cases middle'
  obtain ⟨n, ok⟩ := builds (.start (.number 1))
  obtain ⟨n', ok'⟩ := builds between
  obtain ⟨drawn, keys⟩ := took_twoCities took ok
  obtain ⟨drawn', keys'⟩ := took_twoCities took' ok'
  rw [seed', drawn] at keys'
  refine ⟨rfl, texts, other, n, n', between, after, ?_, drawn, drawn'.trans ?_, keys, keys'⟩
  · rw [attempts_cons, attempts_cons, middle, stop, ok, ok']
    rfl
  · rw [drawn]
    rfl

/-! ### Failures with all keys made -/

/-- The builder of the platform, but it encodes keys by nothing. -/
def mute : Builder Random.Choice := { platform with encodeKey := fun _ => "" }

/-- The network of two cities, with a version that is not written. -/
def longCities : NetworkConfig :=
  ⟨twoCities.members, twoCities.notaries.map fun d => ⟨d.service, longVersions⟩,
    twoCities.schemeName, twoCities.members_nodup, by decide⟩

theorem services_longCities : longCities.services = twoCities.services := by
  rw [NetworkConfig.services, NetworkConfig.services, longCities, List.map_map]
  rfl

/-- A build on the platform that does not succeed, though it is planned, fails in the encoding and
has taken all keys. -/
theorem failure_of_planned (known : b.registry = .platform)
    (draws : b.provisioner.draw = Random.Choice.draw) {c : NetworkConfig} {plan : Plan}
    (made : (b.plan c).outcome = .ok plan) (other : c.schemeName.val ≠ KeyScheme.rsa.codeName)
    (texts : ∀ s ∈ c.services, s.Renderable) (aligned : stream.Aligned)
    (fails : ∀ n, (b.build c (.seeded stream)).1.outcome ≠ .ok n) :
    ∃ f after, (b.build c (.seeded stream)).1.outcome = .error f ∧ f.OfEncoding ∧
      (b.build c (.seeded stream)).2 = .seeded after ∧ after.bytesDrawn =
        stream.bytesDrawn + plan.scheme.width * (c.members.length + c.notaries.length) := by
  have scheme := (plan_eq_ok made).scheme
  rw [known] at scheme
  obtain ⟨recipe, found⟩ := (drawn_of_find? scheme other).exists_recipe
  obtain ⟨after, state, -, -, drawn, ⟨n, ok, -⟩ | ⟨f, failure, late⟩⟩ :=
    build_of_recipe draws made found texts aligned
  · exact absurd ok (fails n)
  · exact ⟨f, after, failure, late, state, drawn⟩

/-- Where keys are encoded by nothing, no network with a service is built. -/
theorem mute_ne_ok {c : NetworkConfig} {source : Random.Choice} {d : NotaryDeclaration}
    (declared : d ∈ c.notaries) (n : Network) : (mute.build c source).1.outcome ≠ .ok n := by
  intro ok
  obtain ⟨plan, planned, -, keys, -, encoded, -⟩ := build_eq_ok ok
  have filled := ((exists_encodeParameters_iff planned keys).mp ⟨_, encoded⟩).2
  obtain ⟨pair, found⟩ := Parameters.exists_workerPair planned.workers keys
    (List.mem_map.mpr ⟨d, declared, rfl⟩)
  have empty : ¬ 1 ≤ "".length := by decide
  exact empty (filled d declared pair found)

/-- Two builds fail with all keys made: keys are encoded by nothing, and a version is not written. -/
theorem failures_advance :
    (∀ s ∈ twoCities.services, s.Renderable) ∧
    (∀ scheme, SchemeRegistry.platform.find? twoCities.schemeName.val = some scheme →
      ¬ scheme.MakesRsa) ∧
    (∃ f after, (mute.build twoCities (.seeded (.start (.number 1)))).1.outcome = .error f ∧
      f.OfEncoding ∧ (mute.build twoCities (.seeded (.start (.number 1)))).2 = .seeded after ∧
      after.bytesDrawn = 64) ∧
    (∀ s ∈ longCities.services, s.Renderable) ∧ longCities.schemeName = twoCities.schemeName ∧
    ∃ f after, (platform.build longCities (.seeded (.start (.number 1)))).1.outcome = .error f ∧
      f.OfEncoding ∧ (platform.build longCities (.seeded (.start (.number 1)))).2 = .seeded after ∧
      after.bytesDrawn = 64 := by
  have aligned := SeededStream.aligned_start (.number 1)
  have texts : ∀ s ∈ longCities.services, s.Renderable := by
    rw [services_longCities]
    exact renderable_twoCities
  have unspelled : ∀ n, (platform.build longCities (.seeded (.start (.number 1)))).1.outcome ≠
      .ok n := by
    intro n ok
    exact not_writable_longVersions _ (spelled_of_build ok _ List.mem_cons_self).2
  refine ⟨renderable_twoCities, fun scheme => not_makesRsa_twoCities, ?_, texts, rfl, ?_⟩
  · exact failure_of_planned (b := mute) rfl rfl rfl (by decide)
      renderable_twoCities aligned (mute_ne_ok List.mem_cons_self)
  · exact failure_of_planned (b := platform) rfl rfl rfl (by decide) texts aligned unspelled

end Builder

end NotaryNetwork
