import NotaryNetwork.Network.Fixture
import NotaryNetwork.Proofs.Build.Recipe
import NotaryNetwork.Proofs.Build.Stages
import NotaryNetwork.Proofs.Random.Stream

/-!
# Networks from seeded streams

With a scheme of the platform other than RSA a seeded stream never fails to give keys
(`exists_generatePairs`). So where a network is planned it is built, unless a service has no text or
a version is not written (`build_of_plan`).
-/

namespace NotaryNetwork

open NotaryNetwork.Random (SeededStream)

/-! ## Keys -/

/-- The schemes of the platform whose keys are made of bytes of the source. -/
def Drawn (scheme : KeyScheme) : Prop :=
  scheme ∈ SchemeRegistry.platform.schemes ∧ scheme ≠ KeyScheme.rsa

theorem Drawn.exists_recipe {scheme : KeyScheme} (drawn : Drawn scheme) :
    ∃ recipe, scheme.recipe? = some recipe := by
  obtain ⟨known, other⟩ := drawn
  have known : scheme = .rsa ∨ scheme = .secp256k1 ∨ scheme = .secp256r1 ∨ scheme = .ed25519 ∨
      scheme = .x25519 := by
    simpa [SchemeRegistry.platform] using known
  rcases known with rfl | rfl | rfl | rfl | rfl
  · -- RSA keys are not made of bytes of the source.
    exact absurd rfl other
  all_goals exact ⟨_, rfl⟩

theorem Drawn.not_makesRsa {scheme : KeyScheme} (drawn : Drawn scheme) : ¬ scheme.MakesRsa := by
  intro rsa
  obtain ⟨recipe, found⟩ := drawn.exists_recipe
  have absent : scheme.recipe? = none := by
    rw [KeyScheme.recipe?, rsa.algorithm]
    rfl
  rw [absent] at found
  cases found

/-- On the platform only the name of RSA leads to RSA keys. -/
theorem drawn_of_find? {name : String} {scheme : KeyScheme}
    (found : SchemeRegistry.platform.find? name = some scheme) (other : name ≠ KeyScheme.rsa.codeName) :
    Drawn scheme := by
  obtain ⟨registered, named⟩ := SchemeRegistry.of_find? found
  refine ⟨registered, ?_⟩
  rintro rfl
  exact other named.symm

namespace Provisioner

variable {scheme : KeyScheme}

/-- The provisioner that draws on a choice of sources. -/
def choosing (modulus : Nat → Nat) : Provisioner Random.Choice := ⟨Random.Choice.draw, modulus⟩

/-- **A seeded stream gives keys to any identities.** -/
theorem exists_generatePairs (modulus : Nat → Nat) (drawn : Drawn scheme) (is : List Identity)
    (stream : SeededStream) :
    ∃ pairs after, ((choosing modulus).generatePairs scheme is (.seeded stream)).1.outcome =
        .ok pairs ∧
      ((choosing modulus).generatePairs scheme is (.seeded stream)).2 = .seeded after := by
  obtain ⟨recipe, found⟩ := drawn.exists_recipe
  obtain ⟨answers, _, serves, count, after, rfl⟩ := Serves.exists_of_keeps
    (fun _ seeded => Random.Choice.IsSeeded.exists_draw seeded recipe.width) is.length ⟨stream, rfl⟩
  obtain ⟨outcome, state⟩ := generatePairs_of_serves (p := choosing modulus) found serves count
  exact ⟨_, after, outcome, state⟩

end Provisioner

/-! ## Public keys -/

theorem Key.Pem.length_pos_encode (key : PublicKey) : 1 ≤ (Key.Pem.encode key).length := by
  rw [← String.length_toList, encode, String.toList_ofList]
  exact Nat.succ_le_succ (Nat.zero_le _)

/-! ## Building -/

namespace Builder

variable {env : Environment} {c : NetworkConfig}

/-- **Where a network is planned it is built from any stream, unless a declaration is not spelled.**
Then the failure is none of the family. -/
theorem build_of_plan {plan : Plan} (made : (env.builder.plan c).outcome = .ok plan)
    (drawn : Drawn plan.scheme) (stream : SeededStream) :
    (∃ n, (env.builder.build c (.seeded stream)).1.outcome = .ok n) ∧
        (∀ d ∈ c.notaries, d.Spelled) ∨
      (∃ f, (env.builder.build c (.seeded stream)).1.outcome = .error f ∧ ∀ e, f ≠ .build e) ∧
        ¬ ∀ d ∈ c.notaries, d.Spelled := by
  have planned := plan_eq_ok made
  obtain ⟨members, after, memberKeys, state⟩ :=
    Provisioner.exists_generatePairs env.rsaModulus drawn c.members stream
  have notaryKeys : ∃ notaries,
      (env.builder.provisionNotaries plan (.seeded after)).1.outcome = .ok notaries := by
    obtain ⟨notaries, -, keys, -⟩ :=
      Provisioner.exists_generatePairs env.rsaModulus drawn plan.workers.values after
    exact ⟨notaries, (provisionNotaries_apply _ plan _).1.trans keys⟩
  obtain ⟨notaries, notaryKeys⟩ := notaryKeys
  have outcome := (build_of_keys made memberKeys (state ▸ notaryKeys)).1
  rw [outcome]
  have provisioned := provisionNotaries_eq_ok planned.distinct notaryKeys
  have encodable := exists_encodeParameters_iff planned provisioned
  cases encoded : (env.builder.encodeParameters c plan notaries).outcome with
  | ok ps => exact .inl ⟨⟨_, rfl⟩, (encodable.mp ⟨ps, encoded⟩).1⟩
  | error f =>
    refine .inr ⟨⟨f, rfl, encodeParameters_eq_error encoded⟩, fun spelled => ?_⟩
    obtain ⟨ps, ok⟩ := encodable.mpr ⟨spelled, fun _ _ pair _ => Key.Pem.length_pos_encode _⟩
    cases encoded.symm.trans ok

end Builder

end NotaryNetwork
