import NotaryNetwork.Text.Hex

/-!
# UTF-8 and ASCII bytes

`encode` writes characters as bytes; `decode` reads bytes as characters and refuses the first
ill-formed sequence: the start byte with those of its continuation bytes that were still valid.
`ascii` writes characters as single bytes and refuses the first run of characters that are not
ASCII. A text file may end its lines by a line feed, a carriage return, or both; `unifyNewlines`
reads them as one line feed.
-/

namespace NotaryNetwork.Text

namespace Utf8

def encode (cs : List Char) : Bytes :=
  cs.flatMap String.utf8EncodeChar

def size : List Char → Nat
  | [] => 0
  | c :: cs => c.utf8Size + size cs

/-- What is wrong with a sequence of bytes. -/
inductive Fault
  /-- No character starts with this byte. -/
  | invalidStart
  /-- The byte after the refused ones does not continue them. -/
  | invalidContinuation
  | unexpectedEnd
deriving DecidableEq

/-- The refused bytes and the place of the first of them. -/
structure DecodeError where
  position : Nat
  bytes : Bytes
  fault : Fault
deriving DecidableEq

/-- A character of which some bytes have been read. -/
structure Pending where
  /-- The place of its first byte. -/
  position : Nat
  /-- The bytes so far. -/
  bytes : Bytes
  /-- How many bytes are to come. -/
  missing : Nat
  /-- The bounds of the next byte. -/
  low : Nat
  high : Nat
  /-- The code point of the bits so far. -/
  code : Nat

/-- The character that a byte above ASCII opens. The bounds of the second byte leave out overlong
forms, surrogates and code points past U+10FFFF. -/
def opened (position : Nat) (b : UInt8) : Option Pending :=
  let n := b.toNat
  if 0xC2 ≤ n ∧ n ≤ 0xDF then some ⟨position, [b], 1, 0x80, 0xBF, n - 0xC0⟩
  else if n = 0xE0 then some ⟨position, [b], 2, 0xA0, 0xBF, 0⟩
  else if n = 0xED then some ⟨position, [b], 2, 0x80, 0x9F, n - 0xE0⟩
  else if 0xE1 ≤ n ∧ n ≤ 0xEF then some ⟨position, [b], 2, 0x80, 0xBF, n - 0xE0⟩
  else if n = 0xF0 then some ⟨position, [b], 3, 0x90, 0xBF, 0⟩
  else if 0xF1 ≤ n ∧ n ≤ 0xF3 then some ⟨position, [b], 3, 0x80, 0xBF, n - 0xF0⟩
  else if n = 0xF4 then some ⟨position, [b], 3, 0x80, 0x8F, n - 0xF0⟩
  else none

/-- Reads on from a place, with the character that is open there, if any. -/
def decodeFrom : Nat → Option Pending → Bytes → Except DecodeError (List Char)
  | _, none, [] => .ok []
  | _, some p, [] => .error ⟨p.position, p.bytes, .unexpectedEnd⟩
  | i, none, b :: bytes =>
    if b.toNat < 0x80 then (Char.ofNat b.toNat :: ·) <$> decodeFrom (i + 1) none bytes
    else match opened i b with
      | some p => decodeFrom (i + 1) (some p) bytes
      | none => .error ⟨i, [b], .invalidStart⟩
  | i, some p, b :: bytes =>
    if p.low ≤ b.toNat ∧ b.toNat ≤ p.high then
      let code := p.code * 64 + (b.toNat - 0x80)
      if p.missing = 1 then (Char.ofNat code :: ·) <$> decodeFrom (i + 1) none bytes
      else decodeFrom (i + 1) (some ⟨p.position, p.bytes ++ [b], p.missing - 1, 0x80, 0xBF, code⟩) bytes
    else .error ⟨p.position, p.bytes, .invalidContinuation⟩

theorem decodeFrom_ascii {b : UInt8} (h : b.toNat < 0x80) (i : Nat) (bytes : Bytes) :
    decodeFrom i none (b :: bytes) =
      (Char.ofNat b.toNat :: ·) <$> decodeFrom (i + 1) none bytes := by
  rw [decodeFrom, if_pos h]

def decode (bytes : Bytes) : Except DecodeError (List Char) :=
  decodeFrom 0 none bytes

def Fault.message : Fault → String
  | .invalidStart => "invalid start byte"
  | .invalidContinuation => "invalid continuation byte"
  | .unexpectedEnd => "unexpected end of data"

/-- Names the byte where one is refused, the range where there are several. -/
def DecodeError.message (e : DecodeError) : String :=
  match e.bytes with
  | [b] =>
    let shown := String.ofList (Hex.encode [b])
    s!"'utf-8' codec can't decode byte 0x{shown} in position {e.position}: {e.fault.message}"
  | bytes =>
    let last := e.position + bytes.length - 1
    s!"'utf-8' codec can't decode bytes in position {e.position}-{last}: {e.fault.message}"

end Utf8

namespace Ascii

/-- A run of characters that are not ASCII, and the place of the first. -/
structure EncodeError where
  position : Nat
  run : List Char
deriving DecidableEq

def contains (c : Char) : Bool := c.toNat < 0x80

/-- One byte a character; refuses at the first run that is not ASCII. -/
def encode (cs : List Char) : Except EncodeError Bytes :=
  match cs.dropWhile contains with
  | [] => .ok (cs.map fun c => UInt8.ofNat c.toNat)
  | rest => .error ⟨cs.length - rest.length, rest.takeWhile fun c => !contains c⟩

/-- A character by its code, in the fewest of two, four or eight hexadecimal digits. -/
def escaped (point : Nat) : List Char :=
  if point < 0x100 then '\\' :: 'x' :: Hex.padded 2 point
  else if point < 0x10000 then '\\' :: 'u' :: Hex.padded 4 point
  else '\\' :: 'U' :: Hex.padded 8 point

/-- Names the character where one is refused, the range where there are several. -/
def EncodeError.message (e : EncodeError) : String :=
  match e.run with
  | [c] =>
    let shown := String.ofList (escaped c.toNat)
    s!"'ascii' codec can't encode character '{shown}' in position {e.position}: ordinal not in range(128)"
  | run =>
    let last := e.position + run.length - 1
    s!"'ascii' codec can't encode characters in position {e.position}-{last}: ordinal not in range(128)"

end Ascii

/-! ## Line ends -/

/-- The text with line feeds for all line ends. -/
def unifyNewlines : List Char → List Char
  | '\r' :: '\n' :: cs => '\n' :: unifyNewlines cs
  | '\r' :: cs => '\n' :: unifyNewlines cs
  | c :: cs => c :: unifyNewlines cs
  | [] => []

end NotaryNetwork.Text
