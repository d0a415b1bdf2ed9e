/-!
# Byte strings

Byte strings as lists, and numbers of a fixed width in the two byte orders. Reading what was written
gives the number back up to what the width cuts off (`ofBigEndian_bigEndian`).
-/

namespace NotaryNetwork

/-- A byte string. -/
abbrev Bytes := List UInt8

/-- The number of binary digits. -/
def bitLength (n : Nat) : Nat :=
  if n = 0 then 0 else n.log2 + 1

namespace Bytes

/-- The last `width` bytes of a number, most significant first. -/
def bigEndian : Nat → Nat → Bytes
  | 0, _ => []
  | width + 1, n => bigEndian width (n / 256) ++ [UInt8.ofNat n]

/-- The number that bytes spell, most significant first. -/
def ofBigEndian (bytes : Bytes) : Nat :=
  bytes.foldl (fun n b => 256 * n + b.toNat) 0

/-- The last `width` bytes of a number, least significant first. -/
def littleEndian (width n : Nat) : Bytes :=
  (bigEndian width n).reverse

/-- The number that bytes spell, least significant first. -/
def ofLittleEndian (bytes : Bytes) : Nat :=
  ofBigEndian bytes.reverse

@[simp]
theorem length_bigEndian (width n : Nat) : (bigEndian width n).length = width := by
  induction width generalizing n with
  | zero => rfl
  | succ width ih => simp [bigEndian, ih]

theorem ofBigEndian_append_singleton (bytes : Bytes) (b : UInt8) :
    ofBigEndian (bytes ++ [b]) = 256 * ofBigEndian bytes + b.toNat := by
  simp [ofBigEndian, List.foldl_append]

/-- Reading gives the number back up to what the width cuts off. -/
theorem ofBigEndian_bigEndian (width n : Nat) :
    ofBigEndian (bigEndian width n) = n % Nat.pow 256 width := by
  induction width generalizing n with
  | zero => exact (Nat.mod_one n).symm
  | succ width ih =>
    have byte : (UInt8.ofNat n).toNat = n % 256 := UInt8.toNat_ofNat'
    have step : Nat.pow 256 (width + 1) = 256 * Nat.pow 256 width := Nat.mul_comm _ _
    rw [bigEndian, ofBigEndian_append_singleton, ih, byte, step, Nat.mod_mul, Nat.add_comm]

end Bytes

end NotaryNetwork
