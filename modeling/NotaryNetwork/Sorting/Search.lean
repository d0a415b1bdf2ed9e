/-!
# Searching by doubling and halving

A search for the end of a front part, where a test tells what belongs to it. `halve` looks between two
bounds; `gallop` first finds the bounds by steps that double, from the start of a run. A run may be
given in reverse: its middle is then rounded to the other side. The test may fail, and then the search
does. How often the test is asked, and where, is part of the result if the test does not split the run.
-/

namespace NotaryNetwork.Sorting

/-- The direction in which a run is read. -/
inductive Direction
  | forward
  | backward
deriving DecidableEq

/-- The middle of the places from `low` up to `high`. -/
def Direction.middle (direction : Direction) (low high : Nat) : Nat :=
  match direction with
  | forward => low + (high - low) / 2
  | backward => high - 1 - (high - low) / 2

/-- The end of the front part between `low` and `high`. The first argument bounds the number of
halvings. -/
def halve (direction : Direction) (test : Nat → Option Bool) : Nat → Nat → Nat → Option Nat
  | 0, low, _ => some low
  | bound + 1, low, high =>
    if low < high then do
      let middle := direction.middle low high
      if ← test middle then halve direction test bound (middle + 1) high
      else halve direction test bound low middle
    else some low

/-- A place in the front part and a later one beyond it or at the end. The first argument bounds the
number of steps. -/
def widen (test : Nat → Option Bool) (size : Nat) : Nat → Nat → Nat → Option (Nat × Nat)
  | 0, last, next => some (last, next)
  | bound + 1, last, next =>
    if next < size then do
      if ← test next then widen test size bound next (2 * next + 1)
      else return (last, next)
    else some (last, size)

/-- The length of the front part of a run. -/
def gallop {α : Type} (direction : Direction) (test : α → Option Bool) (run : List α) : Option Nat :=
  let items := run.toArray
  let testAt (i : Nat) : Option Bool :=
    match items[i]? with
    | some x => test x
    | none => some false
  if run.isEmpty then some 0
  else do
    if ← testAt 0 then
      let (last, next) ← widen testAt items.size items.size 0 1
      halve direction testAt items.size (last + 1) next
    else return 0

end NotaryNetwork.Sorting
