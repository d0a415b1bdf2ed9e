import NotaryNetwork.Bytes

/-!
# SHA-2

The digests of the SHA-2 family over words of `w` bits. The constants are the first `w` bits of the
fractional parts of the square and cube roots of the first primes. A digest always has the bytes of
eight words (`length_sha256`, `length_sha512`).
-/

namespace NotaryNetwork.Digest

/-! ## Constants -/

/-- The greatest `r` below `2 ^ bits` with `r ^ k ≤ n`. -/
def root (k n : Nat) : Nat → Nat → Nat
  | 0, found => found
  | bits + 1, found =>
    let tried := found + Nat.pow 2 bits
    root k n bits (if Nat.pow tried k ≤ n then tried else found)

/-- A number with no divisor from 2 up to itself. -/
def isPrime (n : Nat) : Bool :=
  2 ≤ n && (List.range n).all fun d => d < 2 || n % d != 0

def primesBelow (bound : Nat) : List Nat :=
  (List.range bound).filter isPrime

/-- The first `w` bits of the fractional part of the `k`-th root of a number below 512. -/
def fractionOfRoot (w k n : Nat) : BitVec w :=
  BitVec.ofNat w (root k (n * Nat.pow 2 (k * w)) (w + 5) 0)

/-! ## The family -/

/-- Two rotations and a shift, or three rotations. -/
structure Mix where
  first : Nat
  second : Nat
  third : Nat

/-- A member of the family over words of `w` bits. -/
structure Family (w : Nat) where
  /-- One constant a round. -/
  constants : List (BitVec w)
  /-- The state before the first block. -/
  initial : List (BitVec w)
  /-- The mixing of the words of the block. -/
  small0 : Mix
  small1 : Mix
  /-- The mixing of the state. -/
  large0 : Mix
  large1 : Mix

/-- The eight words of the state. -/
structure State (w : Nat) where
  a : BitVec w
  b : BitVec w
  c : BitVec w
  d : BitVec w
  e : BitVec w
  f : BitVec w
  g : BitVec w
  h : BitVec w

variable {w : Nat}

def Mix.small (m : Mix) (x : BitVec w) : BitVec w :=
  x.rotateRight m.first ^^^ x.rotateRight m.second ^^^ x >>> m.third

def Mix.large (m : Mix) (x : BitVec w) : BitVec w :=
  x.rotateRight m.first ^^^ x.rotateRight m.second ^^^ x.rotateRight m.third

/-- The word that follows sixteen words of the schedule. -/
def Family.nextWord (F : Family w) (window : List (BitVec w)) : BitVec w :=
  F.small1.small (window.getD 14 0) + window.getD 9 0 + F.small0.small (window.getD 1 0) +
    window.getD 0 0

/-- One round with a constant and a word. -/
def Family.round (F : Family w) (s : State w) (k x : BitVec w) : State w :=
  let choice := (s.e &&& s.f) ^^^ (~~~s.e &&& s.g)
  let majority := (s.a &&& s.b) ^^^ (s.a &&& s.c) ^^^ (s.b &&& s.c)
  let t1 := s.h + F.large1.large s.e + choice + k + x
  let t2 := F.large0.large s.a + majority
  ⟨t1 + t2, s.a, s.b, s.c, s.d + t1, s.e, s.f, s.g⟩

/-- The rounds of a block, with the window of sixteen words of the schedule. -/
def Family.rounds (F : Family w) (s : State w) (window : List (BitVec w)) :
    List (BitVec w) → State w
  | [] => s
  | k :: ks =>
    F.rounds (F.round s k (window.getD 0 0)) (window.drop 1 ++ [F.nextWord window]) ks

def State.add (s t : State w) : State w :=
  ⟨s.a + t.a, s.b + t.b, s.c + t.c, s.d + t.d, s.e + t.e, s.f + t.f, s.g + t.g, s.h + t.h⟩

/-- As many pieces of one length. -/
def pieces {α : Type} (length : Nat) : Nat → List α → List (List α)
  | 0, _ => []
  | count + 1, xs => xs.take length :: pieces length count (xs.drop length)

def words (w : Nat) (bytes : Bytes) : List (BitVec w) :=
  (pieces (w / 8) (bytes.length / (w / 8)) bytes).map fun piece =>
    BitVec.ofNat w (Bytes.ofBigEndian piece)

/-- The message filled up to whole blocks of sixteen words: a marked bit, zeros and the length in
bits, which takes two words. -/
def padded (w : Nat) (message : Bytes) : Bytes :=
  let block := 2 * w
  let used := message.length + 1 + w / 4
  message ++ 0x80 :: List.replicate ((block - used % block) % block) 0 ++
    Bytes.bigEndian (w / 4) (8 * message.length)

def Family.compress (F : Family w) (s : State w) (block : Bytes) : State w :=
  s.add (F.rounds s (words w block) F.constants)

/-- The state before the first block. -/
def Family.start (F : Family w) : State w :=
  let word (i : Nat) := F.initial.getD i 0
  ⟨word 0, word 1, word 2, word 3, word 4, word 5, word 6, word 7⟩

def State.bytes (s : State w) : Bytes :=
  [s.a, s.b, s.c, s.d, s.e, s.f, s.g, s.h].flatMap fun x => Bytes.bigEndian (w / 8) x.toNat

def Family.digest (F : Family w) (message : Bytes) : Bytes :=
  let text := padded w message
  ((pieces (2 * w) (text.length / (2 * w)) text).foldl F.compress F.start).bytes

theorem State.length_bytes (s : State w) : s.bytes.length = 8 * (w / 8) := by
  simp only [bytes, List.flatMap_cons, List.flatMap_nil, List.append_nil, List.length_append,
    Bytes.length_bigEndian]
  omega

/-! ## Two members -/

/-- The member over words of 32 bits: 64 rounds. -/
def family32 : Family 32 where
  constants := (primesBelow 312).map (fractionOfRoot 32 3)
  initial := (primesBelow 20).map (fractionOfRoot 32 2)
  small0 := ⟨7, 18, 3⟩
  small1 := ⟨17, 19, 10⟩
  large0 := ⟨2, 13, 22⟩
  large1 := ⟨6, 11, 25⟩

/-- The member over words of 64 bits: 80 rounds. -/
def family64 : Family 64 where
  constants := (primesBelow 410).map (fractionOfRoot 64 3)
  initial := (primesBelow 20).map (fractionOfRoot 64 2)
  small0 := ⟨1, 8, 7⟩
  small1 := ⟨19, 61, 6⟩
  large0 := ⟨28, 34, 39⟩
  large1 := ⟨14, 18, 41⟩

/-- The digest of 32 bytes. -/
def sha256 (message : Bytes) : Bytes := family32.digest message

/-- The digest of 64 bytes. -/
def sha512 (message : Bytes) : Bytes := family64.digest message

@[simp]
theorem length_sha256 (message : Bytes) : (sha256 message).length = 32 :=
  State.length_bytes _

@[simp]
theorem length_sha512 (message : Bytes) : (sha512 message).length = 64 :=
  State.length_bytes _

end NotaryNetwork.Digest
