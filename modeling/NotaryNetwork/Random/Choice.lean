import NotaryNetwork.Random.Source

/-!
# The choice of a source

A network takes its bytes from the system, from a seeded stream, from a list of answers, or from a
source that always fails.
-/

namespace NotaryNetwork.Random

/-- A source that can be chosen. -/
inductive Choice
  /-- The system: its bytes from a position on. -/
  | system (entropy : Nat → UInt8) (position : Nat)
  | seeded (stream : SeededStream)
  /-- Answers in turn whatever is asked for, the last one for ever, and the lengths asked so far. -/
  | listed (answers : List Bytes) (asked : List Int)
  /-- The same fault each time. -/
  | failing (fault : Fault)

namespace Choice

/-- The answers that are left after one; the last one stays. -/
def remaining : List Bytes → List Bytes
  | [last] => [last]
  | answers => answers.drop 1

/-- The number of bytes that there is no room for. -/
def memoryLimit : Nat := Nat.pow 2 36

/-- The number of bytes that is too large for a byte string. -/
def sizeLimit : Nat := Nat.pow 2 63 - 33

/-- The number of bytes that is too large to be asked for. -/
def wordLimit : Nat := Nat.pow 2 63

/-- What the system says of a request that it does not answer. -/
def refusal? (length : Int) : Option Fault :=
  if length < 0 then some (negativeLength length)
  else if length.toNat < memoryLimit then none
  else if length.toNat < sizeLimit then some ⟨.memory, ""⟩
  else if length.toNat < wordLimit then some ⟨.overflow, "byte string is too large"⟩
  else some ⟨.overflow, "Python int too large to convert to C ssize_t"⟩

def draw : Draw Choice := fun length source =>
  match source with
  | system entropy position =>
    match refusal? length with
    | some fault => (.error fault, source)
    | none =>
      (.ok ((List.range length.toNat).map fun i => entropy (position + i)),
        system entropy (position + length.toNat))
  | seeded stream =>
    let (answer, stream) := stream.draw length
    (answer, seeded stream)
  | listed answers asked =>
    (.ok (answers.headD []), listed (remaining answers) (asked ++ [length]))
  | failing fault => (.error fault, source)

end Choice

end NotaryNetwork.Random
