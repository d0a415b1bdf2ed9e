import NotaryNetwork.Proofs.Bytes
import NotaryNetwork.Proofs.Random.Requests

/-!
# The bytes of seeds

The width that the seed of a whole number is given has room for the sign as well, so the number is
written in two's complement without a loss and read back from its bytes
(`signedBigEndian?_width`, `ofSignedBigEndian_of_written`). Nothing stands between the seed and the
counter that a digest is made of; a counter always takes eight bytes, so both can be told from them
all the same (`digestInput_inj`).
-/

namespace NotaryNetwork

namespace Bytes

/-! ## Two's complement -/

/-- A width of bytes has room for a whole number and its sign. -/
def HasRoom (width : Nat) (n : Int) : Prop :=
  -(Nat.pow 256 width : Int) ≤ 2 * n ∧ 2 * n < (Nat.pow 256 width : Int)

instance (width : Nat) (n : Int) : Decidable (HasRoom width n) :=
  inferInstanceAs (Decidable (_ ∧ _))

/-- A whole number in two's complement, most significant byte first; nothing if there is no room for
it. A negative number is counted down from the power that is one digit too long. -/
def signedBigEndian? (width : Nat) (n : Int) : Option Bytes :=
  if HasRoom width n then
    some (bigEndian width (if n < 0 then Nat.pow 256 width - n.natAbs else n.natAbs))
  else none

/-- The whole number that bytes spell in two's complement, most significant first. It is negative if
the highest digit of the first byte is set. -/
def ofSignedBigEndian (bytes : Bytes) : Int :=
  if 128 ≤ (bytes.headD 0).toNat then (ofBigEndian bytes : Int) - (Nat.pow 256 bytes.length : Int)
  else ofBigEndian bytes

theorem ofBigEndian_cons (b : UInt8) (bytes : Bytes) :
    ofBigEndian (b :: bytes) = b.toNat * Nat.pow 256 bytes.length + ofBigEndian bytes := by
  induction bytes using List.reverseRecOn with
  | nil => simp [ofBigEndian]
  | append_singleton bytes c ih =>
    have step : Nat.pow 256 (bytes.length + 1) = 256 * Nat.pow 256 bytes.length :=
      Nat.mul_comm _ _
    rw [← List.cons_append, ofBigEndian_append_singleton, ofBigEndian_append_singleton, ih,
      List.length_append, List.length_singleton, step, Nat.mul_add, Nat.mul_left_comm,
      Nat.add_assoc]

/-- The highest digit of the first byte is set where the number is at least half of the power that
is one digit too long. -/
theorem top_iff (bytes : Bytes) :
    128 ≤ (bytes.headD 0).toNat ↔ Nat.pow 256 bytes.length ≤ 2 * ofBigEndian bytes := by
  cases bytes with
  | nil => decide
  | cons b bytes =>
    have step : Nat.pow 256 (bytes.length + 1) = 256 * Nat.pow 256 bytes.length :=
      Nat.mul_comm _ _
    have below := ofBigEndian_lt bytes
    rw [ofBigEndian_cons, List.length_cons, step, List.headD_cons]
    generalize Nat.pow 256 bytes.length = unit at below ⊢
    constructor
    · intro top
      have := Nat.mul_le_mul_right unit top
      omega
    · intro large
      by_contra low
      have := Nat.mul_le_mul_right unit (Nat.le_of_lt_succ (Nat.lt_of_not_le low))
      omega

/-- **A whole number that has been written in two's complement is read back.** -/
theorem ofSignedBigEndian_of_written {width : Nat} {n : Int} {bytes : Bytes}
    (h : signedBigEndian? width n = some bytes) : ofSignedBigEndian bytes = n := by
  unfold signedBigEndian? at h
  by_cases room : HasRoom width n
  · rw [if_pos room] at h
    obtain rfl := Option.some.inj h
    obtain ⟨least, most⟩ := room
    simp only [ofSignedBigEndian, top_iff, length_bigEndian, ofBigEndian_bigEndian]
    generalize Nat.pow 256 width = size at least most ⊢
    by_cases negative : n < 0
    · have inside : (size - n.natAbs) % size = size - n.natAbs := Nat.mod_eq_of_lt (by omega)
      rw [if_pos negative, inside, if_pos (by omega)]
      omega
    · have inside : n.natAbs % size = n.natAbs := Nat.mod_eq_of_lt (by omega)
      rw [if_neg negative, inside, if_neg (by omega)]
      omega
  · rw [if_neg room] at h
    cases h

end Bytes

namespace Random

open Bytes (HasRoom signedBigEndian? ofSignedBigEndian)

/-! ## Whole numbers as seeds -/

/-- There is room for one digit more than a number has, which is left for the sign. -/
theorem hasRoom_width (n : Int) : HasRoom ((bitLength n.natAbs + 8) / 8) n := by
  have digits := lt_two_pow_bitLength n.natAbs
  have step : Nat.pow 2 (bitLength n.natAbs + 1) = Nat.pow 2 (bitLength n.natAbs) * 2 := rfl
  have shifted : 2 * n.natAbs < Nat.pow 2 (bitLength n.natAbs + 1) := by omega
  have double : 2 * n.natAbs < Nat.pow 256 ((bitLength n.natAbs + 8) / 8) :=
    Bytes.lt_pow_of_lt_two_pow shifted (by omega)
  unfold HasRoom
  generalize Nat.pow 256 ((bitLength n.natAbs + 8) / 8) = size at double ⊢
  omega

/-- **The seed of a whole number is its two's complement: no number is too long for its width.** -/
theorem signedBigEndian?_width (n : Int) :
    signedBigEndian? ((bitLength n.natAbs + 8) / 8) n = some (twosComplement n) := by
  have room := hasRoom_width n
  unfold signedBigEndian? twosComplement
  rw [if_pos room]
  obtain ⟨least, most⟩ := room
  generalize (bitLength n.natAbs + 8) / 8 = width at least most ⊢
  refine congrArg (fun k => some (Bytes.bigEndian width k)) ?_
  generalize Nat.pow 256 width = size at least most ⊢
  by_cases negative : n < 0
  · have wrapped : n % (size : Int) = n + size := by
      rw [← Int.add_emod_right]
      exact Int.emod_eq_of_lt (by omega) (by omega)
    rw [if_pos negative, wrapped]
    omega
  · rw [if_neg negative, Int.emod_eq_of_lt (by omega) (by omega)]
    omega

theorem ofSignedBigEndian_number (n : Int) :
    ofSignedBigEndian (Seed.number n).toBytes = n :=
  Bytes.ofSignedBigEndian_of_written (signedBigEndian?_width n)

/-- The sign takes a byte of its own where the digits fill their bytes. -/
example : (Seed.number 127).toBytes = [0x7f] ∧ (Seed.number 128).toBytes = [0x00, 0x80] ∧
    (Seed.number (-128)).toBytes = [0xff, 0x80] := by decide

/-! ## Inputs of digests -/

/-- The bytes that the digest with a counter is made of. -/
def digestInput (seed : Bytes) (counter : Nat) : Bytes :=
  seed ++ Bytes.bigEndian 8 counter

theorem block_start (seed : Seed) (counter : Nat) :
    block (SeededStream.start seed).seed counter =
      Digest.sha256 (digestInput seed.toBytes counter) := rfl

/-- **Seeds and counters that are written alike are the same, whatever the length of the seeds.** -/
theorem digestInput_inj {seed seed' : Bytes} {i j : Nat} (hi : i < 0x10000000000000000)
    (hj : j < 0x10000000000000000) :
    digestInput seed i = digestInput seed' j ↔ seed = seed' ∧ i = j := by
  constructor
  · intro same
    obtain ⟨seeds, counters⟩ := List.append_inj' same (by simp)
    have numbers := congrArg Bytes.ofBigEndian counters
    rw [counter_written hi, counter_written hj] at numbers
    exact ⟨seeds, numbers⟩
  · rintro ⟨rfl, rfl⟩
    rfl

/-- **Every whole number, whatever its size and sign, has room in its width and is read back from
the bytes of its seed, so different numbers make different seeds. The input of a digest tells the
bytes of the seed and the counter, whatever kinds of seeds are compared.** -/
theorem digestInput_tells :
    (∀ n : Int, signedBigEndian? ((bitLength n.natAbs + 8) / 8) n = some (Seed.number n).toBytes ∧
      ofSignedBigEndian (Seed.number n).toBytes = n) ∧
    (∀ m n : Int, (Seed.number m).toBytes = (Seed.number n).toBytes ↔ m = n) ∧
    (∀ seed counter, block (SeededStream.start seed).seed counter =
      Digest.sha256 (digestInput seed.toBytes counter)) ∧
    ∀ (s t : Seed) (i j : Nat), i < 0x10000000000000000 → j < 0x10000000000000000 →
      (digestInput s.toBytes i = digestInput t.toBytes j ↔ s.toBytes = t.toBytes ∧ i = j) := by
  refine ⟨fun n => ⟨?_, ?_⟩, fun m n => ⟨fun same => ?_, fun same => ?_⟩, fun seed counter => ?_,
    fun s t i j hi hj => ?_⟩
  · exact signedBigEndian?_width n
  · exact ofSignedBigEndian_number n
  · rw [← ofSignedBigEndian_number m, same, ofSignedBigEndian_number]
  · rw [same]
  · exact block_start seed counter
  · exact digestInput_inj hi hj

/-- A number at the end of a width and a seed that is given as the same bytes: with one counter the
digests are made of the same bytes, with two counters they are not. -/
theorem digestInput_tells_edge :
    5 < 0x10000000000000000 ∧ 6 < 0x10000000000000000 ∧
    signedBigEndian? 2 (-128) = some [0xff, 0x80] ∧ ofSignedBigEndian [0xff, 0x80] = -128 ∧
    digestInput (Seed.number (-128)).toBytes 5 = digestInput (Seed.bytes [0xff, 0x80]).toBytes 5 ∧
    digestInput (Seed.number (-128)).toBytes 5 ≠ digestInput (Seed.bytes [0xff, 0x80]).toBytes 6 := by
  have five : 5 < 0x10000000000000000 := by decide
  have six : 6 < 0x10000000000000000 := by decide
  have bytes : (Seed.number (-128)).toBytes = [0xff, 0x80] := by decide
  obtain ⟨numbers, -, -, tells⟩ := digestInput_tells
  obtain ⟨written, read⟩ := numbers (-128)
  rw [bytes] at written read
  have same := tells (.number (-128)) (.bytes [0xff, 0x80]) 5 5 five five
  have apart := tells (.number (-128)) (.bytes [0xff, 0x80]) 5 6 five six
  refine ⟨five, six, written, read, same.mpr ⟨bytes, rfl⟩, fun equal => ?_⟩
  exact absurd (apart.mp equal).2 (by decide)

end Random

end NotaryNetwork
