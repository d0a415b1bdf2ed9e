import NotaryNetwork.Digest
import NotaryNetwork.Text.Decimal
import NotaryNetwork.Text.Utf8

/-!
# Sources of random bytes

A source answers a request for a number of bytes with bytes or with a fault, and goes on in a new
state. Key generation takes any source; nothing assumes that as many bytes come as were asked for.
A seeded stream is a reproducible source: the digests of the seed followed by a counter, one after
the other. It answers with the next bytes, whatever way the requests are cut; a byte is given once.
-/

namespace NotaryNetwork.Random

/-- The kinds of faults that a source may raise. -/
inductive FaultKind
  /-- A request or an answer with a value that is not admitted. -/
  | value
  | type
  /-- An algorithm that is not supported. -/
  | unsupported
  | runtime
  | system
  | key
  /-- A number that is too large for the system. -/
  | overflow
  /-- More bytes than there is room for. -/
  | memory
  /-- An error with another name. -/
  | other (name : String)
deriving DecidableEq

/-- What a source raises instead of an answer. -/
structure Fault where
  kind : FaultKind
  message : String
deriving DecidableEq

/-- A request for less than no bytes. -/
def negativeLength (length : Int) : Fault :=
  ⟨.value, match Text.written? length with
    | some text => s!"length must be >= 0, got {text}"
    | none => Text.tooManyDigits⟩

/-- The answers of a source with states in `σ`. -/
abbrev Draw (σ : Type) := Int → σ → Except Fault Bytes × σ

/-! ## Seeded streams -/

/-- What a stream is started from. -/
inductive Seed
  | bytes (bytes : Bytes)
  | text (text : String)
  | number (n : Int)

/-- A whole number in two's complement, with one byte more than its binary digits fill. -/
def twosComplement (n : Int) : Bytes :=
  let width := (bitLength n.natAbs + 8) / 8
  Bytes.bigEndian width (n % Nat.pow 256 width).toNat

/-- The bytes of a seed: a text in UTF-8, a number in two's complement. -/
def Seed.toBytes : Seed → Bytes
  | bytes bs => bs
  | text s => Text.Utf8.encode s.toList
  | number n => twosComplement n

/-- The block of a counter: 32 bytes. -/
def block (seed : Bytes) (counter : Nat) : Bytes :=
  Digest.sha256 (seed ++ Bytes.bigEndian 8 counter)

def blocks (seed : Bytes) (first : Nat) : Nat → Bytes
  | 0 => []
  | count + 1 => block seed first ++ blocks seed (first + 1) count

/-- A stream: the next counter, the bytes that have been made and not been given, and the count of
the bytes given. -/
structure SeededStream where
  seed : Bytes
  counter : Nat
  buffer : Bytes
  bytesDrawn : Nat
deriving DecidableEq

namespace SeededStream

def start (seed : Seed) : SeededStream := ⟨seed.toBytes, 0, [], 0⟩

/-- The next bytes. A request for less than none is refused and changes nothing. -/
def draw : Draw SeededStream := fun length s =>
  if length < 0 then (.error (negativeLength length), s)
  else
    let n := length.toNat
    let count := (n - s.buffer.length + 31) / 32
    let bytes := s.buffer ++ blocks s.seed s.counter count
    (.ok (bytes.take n),
      { s with counter := s.counter + count, buffer := bytes.drop n, bytesDrawn := s.bytesDrawn + n })

end SeededStream

end NotaryNetwork.Random
