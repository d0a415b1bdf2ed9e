/-!
# Decimal digits and numbers

The Unicode general category Nd comes in blocks of ten consecutive characters, each block starting
with its zero. The type of an attribute in a name may be spelled with any of them; only the ASCII
block has a numeric meaning. A number of more than `mostDigits` digits is neither read nor written.
-/

namespace NotaryNetwork.Text

/-! ## Digits -/

/-- The zero of every block of decimal digits in Unicode 14. -/
def decimalZeros : List Nat := [
   0x30, 0x660, 0x6F0, 0x7C0, 0x966, 0x9E6, 0xA66, 0xAE6, 0xB66, 0xBE6, 0xC66, 0xCE6, 0xD66, 0xDE6,
   0xE50, 0xED0, 0xF20, 0x1040, 0x1090, 0x17E0, 0x1810, 0x1946, 0x19D0, 0x1A80, 0x1A90, 0x1B50,
   0x1BB0, 0x1C40, 0x1C50, 0xA620, 0xA8D0, 0xA900, 0xA9D0, 0xA9F0, 0xAA50, 0xABF0, 0xFF10, 0x104A0,
   0x10D30, 0x11066, 0x110F0, 0x11136, 0x111D0, 0x112F0, 0x11450, 0x114D0, 0x11650, 0x116C0,
   0x11730, 0x118E0, 0x11950, 0x11C50, 0x11D50, 0x11DA0, 0x16A60, 0x16AC0, 0x16B50, 0x1D7CE,
   0x1D7D8, 0x1D7E2, 0x1D7EC, 0x1D7F6, 0x1E140, 0x1E2F0, 0x1E950, 0x1FBF0  ]

/-- A decimal digit of any script. -/
def isDecimalDigit (c : Char) : Bool :=
  decimalZeros.any fun first => first ≤ c.toNat && c.toNat < first + 10

/-- A decimal digit of any script, or an ASCII letter. -/
def isAlphanumeric (c : Char) : Bool :=
  c.isAlpha || isDecimalDigit c

theorem isDecimalDigit_of_isDigit {c : Char} (h : c.isDigit = true) : isDecimalDigit c = true := by
  simp only [Char.isDigit, Bool.and_eq_true, decide_eq_true_eq, ge_iff_le] at h
  have h1 : 0x30 ≤ c.toNat := h.1
  have h2 : c.toNat ≤ 0x39 := h.2
  simp only [isDecimalDigit, decimalZeros, List.any_cons, Bool.or_eq_true, Bool.and_eq_true,
    decide_eq_true_eq]
  left
  omega

/-! ## Numbers -/

def digitValue (c : Char) : Nat := c.toNat - 0x30

/-- The number that ASCII digits stand for; no digits stand for zero. -/
def ofDigits (digits : List Char) : Nat :=
  digits.foldl (fun n c => 10 * n + digitValue c) 0

/-- The most digits of a number that is read or written. -/
def mostDigits : Nat := 4300

/-- The decimal text of a number. A number of more than `mostDigits` digits is not written. -/
def written? (n : Int) : Option String :=
  if (toString n.natAbs).length ≤ mostDigits then some (toString n) else none

/-- What is said of a number that is not written. -/
def tooManyDigits : String :=
  s!"Exceeds the limit ({mostDigits} digits) for integer string conversion; use sys.set_int_max_str_digits() to increase the limit"

end NotaryNetwork.Text
