import Mathlib.Data.Nat.Count
import Mathlib.Data.Set.Card
import NotaryNetwork.Bytes

/-!
# Byte strings and numbers

Byte strings of one length spell the numbers below a power of 256, each of them once
(`bigEndian_ofBigEndian`, `ofBigEndian_lt`). So there are as many byte strings of a length whose
number has a property as there are such numbers (`ncard_ofBigEndian`).
-/

namespace NotaryNetwork

theorem lt_two_pow_bitLength (n : Nat) : n < Nat.pow 2 (bitLength n) := by
  unfold bitLength
  by_cases zero : n = 0
  · rw [if_pos zero, zero]
    exact Nat.zero_lt_one
  · rw [if_neg zero]
    exact Nat.lt_log2_self

namespace Bytes

/-- So many bytes hold every number with so many binary digits. -/
theorem lt_pow_of_lt_two_pow {n bits width : Nat} (h : n < Nat.pow 2 bits)
    (room : bits ≤ 8 * width) : n < Nat.pow 256 width := by
  have bytes : Nat.pow 256 width = Nat.pow 2 (8 * width) := (Nat.pow_mul 2 8 width).symm
  rw [bytes]
  exact Nat.lt_of_lt_of_le h (Nat.pow_le_pow_right (by decide) room)

theorem ofBigEndian_lt (bytes : Bytes) : ofBigEndian bytes < Nat.pow 256 bytes.length := by
  induction bytes using List.reverseRecOn with
  | nil => exact Nat.zero_lt_one
  | append_singleton bytes b ih =>
    have digit : b.toNat < 256 := b.toNat_lt
    have step : Nat.pow 256 (bytes.length + 1) = Nat.pow 256 bytes.length * 256 := rfl
    rw [ofBigEndian_append_singleton, List.length_append, List.length_singleton, step]
    omega

/-- **Writing the number of a byte string at its length gives the byte string back.** -/
theorem bigEndian_ofBigEndian (bytes : Bytes) :
    bigEndian bytes.length (ofBigEndian bytes) = bytes := by
  induction bytes using List.reverseRecOn with
  | nil => rfl
  | append_singleton bytes b ih =>
    have digit : b.toNat < 256 := b.toNat_lt
    have front : (256 * ofBigEndian bytes + b.toNat) / 256 = ofBigEndian bytes := by omega
    have last : UInt8.ofNat (256 * ofBigEndian bytes + b.toNat) = b := by
      rw [← UInt8.toNat_inj, UInt8.toNat_ofNat']
      omega
    rw [ofBigEndian_append_singleton, List.length_append, List.length_singleton, bigEndian, front,
      last, ih]

/-- The byte strings of a length whose numbers have a property are those that spell these numbers. -/
theorem setOf_ofBigEndian (width : Nat) (P : Nat → Prop) :
    {bytes : Bytes | bytes.length = width ∧ P (ofBigEndian bytes)} =
      bigEndian width '' {n | n < Nat.pow 256 width ∧ P n} := by
  ext bytes
  constructor
  · rintro ⟨rfl, holds⟩
    exact ⟨ofBigEndian bytes, ⟨ofBigEndian_lt bytes, holds⟩, bigEndian_ofBigEndian bytes⟩
  · rintro ⟨n, ⟨below, holds⟩, rfl⟩
    refine ⟨length_bigEndian width n, ?_⟩
    rwa [ofBigEndian_bigEndian, Nat.mod_eq_of_lt below]

/-- **There are as many byte strings of a length whose numbers have a property as there are such
numbers.** -/
theorem ncard_ofBigEndian (width : Nat) (P : Nat → Prop) [DecidablePred P] :
    {bytes : Bytes | bytes.length = width ∧ P (ofBigEndian bytes)}.ncard =
      Nat.count P (Nat.pow 256 width) := by
  have distinct : Set.InjOn (bigEndian width) {n | n < Nat.pow 256 width ∧ P n} := by
    rintro m ⟨below, -⟩ n ⟨below', -⟩ same
    have numbers := congrArg ofBigEndian same
    rwa [ofBigEndian_bigEndian, ofBigEndian_bigEndian, Nat.mod_eq_of_lt below,
      Nat.mod_eq_of_lt below'] at numbers
  have filtered : {n | n < Nat.pow 256 width ∧ P n} =
      ((Finset.range (Nat.pow 256 width)).filter P : Finset Nat) := by
    ext n
    simp
  rw [setOf_ofBigEndian, distinct.ncard_image, filtered, Set.ncard_coe_finset,
    Nat.count_eq_card_filter_range]

end Bytes

end NotaryNetwork
