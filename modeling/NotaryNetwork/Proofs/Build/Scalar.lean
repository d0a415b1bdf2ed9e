import Mathlib.Data.Int.CardIntervalMod
import NotaryNetwork.Proofs.Build.Recipe
import NotaryNetwork.Proofs.Bytes

/-!
# Scalars

Whatever bytes a source answers with, the scalar of a key on a curve lies between one and the order
of the curve (`scalar_pos`, `scalar_le`). Of the byte strings of the length asked for each scalar
takes nearly the same share: the quotient of their number by the number of scalars, or one more
(`ncard_leadingTo`).
-/

namespace NotaryNetwork.Provisioner

variable {σ : Type} {curve : NamedCurve}

/-! ## The range -/

/-- There is more than one scalar, and 40 bytes spell all of them. -/
theorem order_of_provisioned (h : curve ∈ NamedCurve.provisioned) :
    1 < curve.curve.order - 1 ∧ curve.curve.order - 1 ≤ Nat.pow 256 40 := by
  rcases NamedCurve.mem_provisioned_iff.mp h with rfl | rfl <;> decide

theorem scalar_pos (curve : NamedCurve) (bytes : Bytes) : 1 ≤ scalar curve bytes :=
  Nat.succ_le_succ (Nat.zero_le _)

theorem scalar_le (h : curve ∈ NamedCurve.provisioned) (bytes : Bytes) :
    scalar curve bytes ≤ curve.curve.order - 1 :=
  Nat.mod_lt _ (Nat.zero_lt_of_lt (order_of_provisioned h).1)

/-! ## Shares -/

/-- The byte strings of the length asked for that lead to a scalar. -/
def leadingTo (curve : NamedCurve) (k : Nat) : Set Bytes :=
  {bytes | bytes.length = scalarBytes curve ∧ scalar curve bytes = k}

theorem ncard_leadingTo (h : curve ∈ NamedCurve.provisioned) {k : Nat} (least : 1 ≤ k)
    (most : k ≤ curve.curve.order - 1) :
    (leadingTo curve k).ncard = Nat.pow 256 40 / (curve.curve.order - 1) +
      if k - 1 < Nat.pow 256 40 % (curve.curve.order - 1) then 1 else 0 := by
  have positive : 0 < curve.curve.order - 1 := Nat.zero_lt_of_lt (order_of_provisioned h).1
  have residue : (k - 1) % (curve.curve.order - 1) = k - 1 := Nat.mod_eq_of_lt (by omega)
  -- The scalar is one more than the residue.
  have same : leadingTo curve k = {bytes : Bytes | bytes.length = 40 ∧
      Bytes.ofBigEndian bytes ≡ k - 1 [MOD curve.curve.order - 1]} := by
    ext bytes
    show bytes.length = scalarBytes curve ∧ Bytes.ofBigEndian bytes % (curve.curve.order - 1) + 1 = k ↔
      bytes.length = 40 ∧ Bytes.ofBigEndian bytes % (curve.curve.order - 1) =
        (k - 1) % (curve.curve.order - 1)
    rw [scalarBytes_of_provisioned h, residue]
    exact and_congr_right fun _ => by omega
  have count := Bytes.ncard_ofBigEndian 40 (· ≡ k - 1 [MOD curve.curve.order - 1])
  rw [same, count, Nat.count_modEq_card _ positive, residue]

theorem ncard_leadingTo_pos (h : curve ∈ NamedCurve.provisioned) {k : Nat} (least : 1 ≤ k)
    (most : k ≤ curve.curve.order - 1) : 0 < (leadingTo curve k).ncard := by
  obtain ⟨more, fewer⟩ := order_of_provisioned h
  have each : 0 < Nat.pow 256 40 / (curve.curve.order - 1) :=
    Nat.div_pos fewer (Nat.zero_lt_of_lt more)
  rw [ncard_leadingTo h least most]
  omega

/-! ## Keys -/

theorem recipe?_of_curve {scheme : KeyScheme} (ec : scheme.algorithm = KeyScheme.ecAlgorithm)
    (named : scheme.curve = some curve.name) (h : curve ∈ NamedCurve.provisioned) :
    scheme.recipe? = some ⟨scalarBytes curve, ecKey curve⟩ := by
  rw [KeyScheme.recipe?, if_pos ec, named, Option.bind_some, NamedCurve.ofName?_of_provisioned h]
  rfl

/-- **A key on a curve has a scalar from one to one less than the order, whatever bytes the source
answers with; of the byte strings of the length asked for some lead to each such scalar, and to no
scalar lead two more than to another.** -/
theorem scalars_even (h : curve ∈ NamedCurve.provisioned) :
    (∀ {σ : Type} (p : Provisioner σ) (scheme : KeyScheme) (s t : σ) (bytes : Bytes),
      scheme.algorithm = KeyScheme.ecAlgorithm → scheme.curve = some curve.name →
      p.draw (scalarBytes curve) s = (.ok bytes, t) →
      ∃ k, p.generateKey scheme s = (.ok (.ec curve k), t) ∧ k = scalar curve bytes ∧
        1 ≤ k ∧ k ≤ curve.curve.order - 1) ∧
    scalarBytes curve = 40 ∧
    (∀ k, 1 ≤ k → k ≤ curve.curve.order - 1 →
      (leadingTo curve k).Nonempty ∧ (leadingTo curve k).Finite) ∧
    ∀ k k', 1 ≤ k → k ≤ curve.curve.order - 1 → 1 ≤ k' → k' ≤ curve.curve.order - 1 →
      (leadingTo curve k).ncard ≤ (leadingTo curve k').ncard + 1 := by
  refine ⟨?_, scalarBytes_of_provisioned h, ?_, ?_⟩
  · intro σ p scheme s t bytes ec named answer
    refine ⟨scalar curve bytes, ?_, rfl, scalar_pos curve bytes, scalar_le h bytes⟩
    rw [generateKey_of_recipe (recipe?_of_curve ec named h), drawKey, answer]
    rfl
  · intro k least most
    have positive := ncard_leadingTo_pos h least most
    exact ⟨Set.nonempty_of_ncard_ne_zero positive.ne', Set.finite_of_ncard_pos positive⟩
  · intro k k' least most least' most'
    rw [ncard_leadingTo h least most, ncard_leadingTo h least' most']
    split <;> split <;> omega

/-- The least and the greatest scalar of a curve, and an empty answer. -/
theorem scalars_even_secp256k1 :
    NamedCurve.secp256k1 ∈ NamedCurve.provisioned ∧
    (∃ k, (⟨fun _ s => (.ok [], s), fun _ => 0⟩ : Provisioner Unit).generateKey .secp256k1 () =
      (.ok (.ec .secp256k1 k), ()) ∧ k = scalar .secp256k1 [] ∧ 1 ≤ k ∧
        k ≤ Curve.Weierstrass.secp256k1.order - 1) ∧
    (leadingTo .secp256k1 (Curve.Weierstrass.secp256k1.order - 1)).Nonempty ∧
    (leadingTo .secp256k1 1).ncard ≤
      (leadingTo .secp256k1 (Curve.Weierstrass.secp256k1.order - 1)).ncard + 1 := by
  have provisioned : NamedCurve.secp256k1 ∈ NamedCurve.provisioned := by decide
  have most : 1 ≤ Curve.Weierstrass.secp256k1.order - 1 := by decide
  obtain ⟨keys, -, reached, shares⟩ := scalars_even provisioned
  refine ⟨provisioned, keys _ _ () () [] rfl rfl rfl, (reached _ most (Nat.le_refl _)).1, ?_⟩
  exact shares _ _ (Nat.le_refl 1) most most (Nat.le_refl _)

end NotaryNetwork.Provisioner
