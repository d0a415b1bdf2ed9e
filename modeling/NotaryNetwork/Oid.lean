import NotaryNetwork.Text.Hex

/-!
# Object identifiers

A sequence of numbered arcs, written with points between them. The first two arcs share one number
of the encoded body, so the first is at most 2 and, below 2, the second at most 39. An identifier is
admitted if no arc needs more than 128 bits and its body has at most 63 bytes.
-/

namespace NotaryNetwork

/-- An object identifier. -/
structure Oid where
  arcs : List Nat
deriving DecidableEq

namespace Oid

def dotted (oid : Oid) : String :=
  ".".intercalate (oid.arcs.map toString)

/-- The digits of a number to base 128, most significant first; all but the last are marked. The
first argument bounds the number of digits after the first. -/
def base128 : Nat → Nat → Bytes
  | 0, n => [UInt8.ofNat (n % 128)]
  | width + 1, n =>
    if n < 128 then [UInt8.ofNat n]
    else (base128 width (n / 128)).map (· ||| 0x80) ++ [UInt8.ofNat (n % 128)]

/-- The numbers of the body: the first two arcs in one. -/
def subidentifiers : List Nat → List Nat
  | first :: second :: arcs => (40 * first + second) :: arcs
  | arcs => arcs

def body (oid : Oid) : Bytes :=
  (subidentifiers oid.arcs).flatMap (base128 20)

/-- The first arcs fit into one number. -/
def startsWell : List Nat → Bool
  | first :: second :: _ => first ≤ 2 && (first = 2 || second < 40)
  | _ => false

/-- The identifier of some arcs, if it is admitted. -/
def ofArcs? (arcs : List Nat) : Option Oid :=
  if startsWell arcs && arcs.all (· < Nat.pow 2 128) && (body ⟨arcs⟩).length ≤ 63 then some ⟨arcs⟩ else none

end Oid

end NotaryNetwork
