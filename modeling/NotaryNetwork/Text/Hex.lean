import NotaryNetwork.Bytes

/-!
# Hexadecimal digits

Bytes as pairs of hexadecimal digits, and numbers in a fixed count of digits. Digits are written in
lower case and read in both cases; reading what was written gives the bytes back (`decode_encode`).
-/

namespace NotaryNetwork.Text.Hex

/-- The digit of a number below sixteen. -/
def digit (n : Nat) : Char :=
  if n < 10 then Char.ofNat (0x30 + n) else Char.ofNat (0x57 + n)

/-- The value of a digit in either case. -/
def value? (c : Char) : Option Nat :=
  let n := c.toNat
  if 0x30 ≤ n ∧ n ≤ 0x39 then some (n - 0x30)
  else if 0x61 ≤ n ∧ n ≤ 0x66 then some (n - 0x57)
  else if 0x41 ≤ n ∧ n ≤ 0x46 then some (n - 0x37)
  else none

/-- The last `width` digits of a number, most significant first. -/
def padded : Nat → Nat → List Char
  | 0, _ => []
  | width + 1, n => padded width (n / 16) ++ [digit (n % 16)]

/-- Two digits a byte. -/
def encode (bytes : Bytes) : List Char :=
  bytes.flatMap fun b => [digit (b.toNat / 16), digit (b.toNat % 16)]

/-- The bytes that pairs of digits stand for; nothing if a character is no digit or one is left over. -/
def decode? : List Char → Option Bytes
  | [] => some []
  | [_] => none
  | a :: b :: cs => do
    let high ← value? a
    let low ← value? b
    return UInt8.ofNat (16 * high + low) :: (← decode? cs)

theorem decode?_pair {a b : Char} {cs : List Char} {bytes : Bytes} :
    decode? (a :: b :: cs) = some bytes ↔
      ∃ high low later, value? a = some high ∧ value? b = some low ∧
        decode? cs = some later ∧ bytes = UInt8.ofNat (16 * high + low) :: later := by
  simp only [decode?, Option.bind_eq_bind, Option.bind_eq_some_iff, Option.pure_def,
    Option.some.injEq]
  grind

theorem value?_digit {n : Nat} (h : n < 16) : value? (digit n) = some n := by
  have key : ∀ m : Fin 16, value? (digit m) = some m.val := by decide
  exact key ⟨n, h⟩

theorem decode_encode (bytes : Bytes) : decode? (encode bytes) = some bytes := by
  induction bytes with
  | nil => rfl
  | cons b bytes ih =>
    have hb : b.toNat < 256 := b.toNat_lt
    have low : b.toNat % 16 < 16 := Nat.mod_lt _ (by decide)
    have high : b.toNat / 16 < 16 := by omega
    have whole : 16 * (b.toNat / 16) + b.toNat % 16 = b.toNat := Nat.div_add_mod ..
    have head : encode (b :: bytes)
        = digit (b.toNat / 16) :: digit (b.toNat % 16) :: encode bytes := rfl
    simp only [head, decode?, value?_digit low, value?_digit high, ih, whole, Option.bind_eq_bind,
      Option.bind_some, Option.pure_def, UInt8.ofNat_toNat]

end NotaryNetwork.Text.Hex
