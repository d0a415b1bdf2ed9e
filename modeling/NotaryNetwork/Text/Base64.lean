import NotaryNetwork.Text.Hex

/-!
# Base64

Three bytes in four characters, the last group filled with `=`. Reading is strict: the length is a
multiple of four, the fill stands only in the last group, and the bits that the fill leaves unused
are zero. So `decode?` accepts what `encode` writes (`decode_encode`) and gives the bytes back.
-/

namespace NotaryNetwork.Text.Base64

def digit (n : Nat) : Char :=
  if n < 26 then Char.ofNat (0x41 + n)
  else if n < 52 then Char.ofNat (0x61 + (n - 26))
  else if n < 62 then Char.ofNat (0x30 + (n - 52))
  else if n = 62 then '+'
  else '/'

/-- The number of a character of the alphabet. -/
def value? (c : Char) : Option Nat :=
  let n := c.toNat
  if 0x41 ≤ n ∧ n ≤ 0x5A then some (n - 0x41)
  else if 0x61 ≤ n ∧ n ≤ 0x7A then some (n - 0x61 + 26)
  else if 0x30 ≤ n ∧ n ≤ 0x39 then some (n - 0x30 + 52)
  else if c = '+' then some 62
  else if c = '/' then some 63
  else none

/-- Groups of four characters for groups of three bytes. -/
def encode : Bytes → List Char
  | [] => []
  | [a] => [digit (a.toNat / 4), digit (a.toNat % 4 * 16), '=', '=']
  | [a, b] =>
    [digit (a.toNat / 4), digit (a.toNat % 4 * 16 + b.toNat / 16), digit (b.toNat % 16 * 4), '=']
  | a :: b :: c :: bytes =>
    digit (a.toNat / 4) :: digit (a.toNat % 4 * 16 + b.toNat / 16) ::
      digit (b.toNat % 16 * 4 + c.toNat / 64) :: digit (c.toNat % 64) :: encode bytes

/-- The bytes of a last group, which may be filled. -/
def decodeLast? (p q r s : Char) : Option Bytes := do
  let w ← value? p
  let x ← value? q
  let first := UInt8.ofNat (4 * w + x / 16)
  if r = '=' then
    if s = '=' ∧ x % 16 = 0 then some [first] else none
  else
    let y ← value? r
    let second := UInt8.ofNat (x % 16 * 16 + y / 4)
    if s = '=' then
      if y % 4 = 0 then some [first, second] else none
    else
      let z ← value? s
      some [first, second, UInt8.ofNat (y % 4 * 64 + z)]

/-- The bytes of groups of four characters, of which only the last may be filled. -/
def decode? : List Char → Option Bytes
  | [] => some []
  | [p, q, r, s] => decodeLast? p q r s
  | p :: q :: r :: s :: cs => do
    let w ← value? p
    let x ← value? q
    let y ← value? r
    let z ← value? s
    return UInt8.ofNat (4 * w + x / 16) :: UInt8.ofNat (x % 16 * 16 + y / 4) ::
      UInt8.ofNat (y % 4 * 64 + z) :: (← decode? cs)
  | _ => none

theorem value?_digit {n : Nat} (h : n < 64) : value? (digit n) = some n := by
  have key : ∀ m : Fin 64, value? (digit m) = some m.val := by decide
  exact key ⟨n, h⟩

theorem digit_ne_fill {n : Nat} (h : n < 64) : digit n ≠ '=' := by
  have key : ∀ m : Fin 64, digit m ≠ '=' := by decide
  exact key ⟨n, h⟩

/-! ## Reading back -/

private theorem ofNat_eq {b : UInt8} {n : Nat} (h : n = b.toNat) : UInt8.ofNat n = b := by
  rw [h, UInt8.ofNat_toNat]

theorem decodeLast_one (a : UInt8) :
    decodeLast? (digit (a.toNat / 4)) (digit (a.toNat % 4 * 16)) '=' '=' = some [a] := by
  have ha : a.toNat < 256 := a.toNat_lt
  simp [-UInt8.ofNat_add, -UInt8.ofNat_mul, decodeLast?, value?_digit (show a.toNat / 4 < 64 by omega),
    value?_digit (show a.toNat % 4 * 16 < 64 by omega)]
  exact ofNat_eq (by omega)

theorem decodeLast_two (a b : UInt8) :
    decodeLast? (digit (a.toNat / 4)) (digit (a.toNat % 4 * 16 + b.toNat / 16))
      (digit (b.toNat % 16 * 4)) '=' = some [a, b] := by
  have ha : a.toNat < 256 := a.toNat_lt
  have hb : b.toNat < 256 := b.toNat_lt
  have fill := digit_ne_fill (show b.toNat % 16 * 4 < 64 by omega)
  simp [-UInt8.ofNat_add, -UInt8.ofNat_mul, decodeLast?, value?_digit (show a.toNat / 4 < 64 by omega), fill,
    value?_digit (show a.toNat % 4 * 16 + b.toNat / 16 < 64 by omega),
    value?_digit (show b.toNat % 16 * 4 < 64 by omega)]
  exact ⟨ofNat_eq (by omega), ofNat_eq (by omega)⟩

theorem decodeLast_three (a b c : UInt8) :
    decodeLast? (digit (a.toNat / 4)) (digit (a.toNat % 4 * 16 + b.toNat / 16))
      (digit (b.toNat % 16 * 4 + c.toNat / 64)) (digit (c.toNat % 64)) = some [a, b, c] := by
  have ha : a.toNat < 256 := a.toNat_lt
  have hb : b.toNat < 256 := b.toNat_lt
  have hc : c.toNat < 256 := c.toNat_lt
  have fill := digit_ne_fill (show b.toNat % 16 * 4 + c.toNat / 64 < 64 by omega)
  have fill' := digit_ne_fill (show c.toNat % 64 < 64 by omega)
  simp [-UInt8.ofNat_add, -UInt8.ofNat_mul, decodeLast?, value?_digit (show a.toNat / 4 < 64 by omega), fill, fill',
    value?_digit (show a.toNat % 4 * 16 + b.toNat / 16 < 64 by omega),
    value?_digit (show b.toNat % 16 * 4 + c.toNat / 64 < 64 by omega),
    value?_digit (show c.toNat % 64 < 64 by omega)]
  exact ⟨ofNat_eq (by omega), ofNat_eq (by omega), ofNat_eq (by omega)⟩

theorem encode_ne_nil {bytes : Bytes} (h : bytes ≠ []) : encode bytes ≠ [] := by
  match bytes with
  | [] => exact absurd rfl h
  | [_] => simp [encode]
  | [_, _] => simp [encode]
  | _ :: _ :: _ :: _ => simp [encode]

theorem decode_encode : ∀ bytes : Bytes, decode? (encode bytes) = some bytes
  | [] => rfl
  | [a] => decodeLast_one a
  | [a, b] => decodeLast_two a b
  | [a, b, c] => decodeLast_three a b c
  | a :: b :: c :: d :: bytes => by
    have ih := decode_encode (d :: bytes)
    have more := encode_ne_nil (List.cons_ne_nil d bytes)
    obtain ⟨x, xs, hx⟩ := List.exists_cons_of_ne_nil more
    have ha : a.toNat < 256 := a.toNat_lt
    have hb : b.toNat < 256 := b.toNat_lt
    have hc : c.toNat < 256 := c.toNat_lt
    rw [encode, hx, decode?]
    · rw [← hx, ih]
      simp [-UInt8.ofNat_add, -UInt8.ofNat_mul, value?_digit (show a.toNat / 4 < 64 by omega),
        value?_digit (show a.toNat % 4 * 16 + b.toNat / 16 < 64 by omega),
        value?_digit (show b.toNat % 16 * 4 + c.toNat / 64 < 64 by omega),
        value?_digit (show c.toNat % 64 < 64 by omega)]
      exact ⟨ofNat_eq (by omega), ofNat_eq (by omega), ofNat_eq (by omega)⟩
    · simp

end NotaryNetwork.Text.Base64
