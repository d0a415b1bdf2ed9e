import NotaryNetwork.Sorting.Search

/-!
# Merging two runs

Two neighbouring runs are merged from the end at which the shorter one is set aside. Items are taken
one by one until one run has won often enough in a row; then the merge gallops, taking whole stretches
of a run at a time, for as long as the stretches are long. What has to be won in a row falls while
galloping pays and rises when it does not, and it is handed on to the next merge.

Both runs are given in the direction of the merge. The second one holds the items that came later.
-/

namespace NotaryNetwork.Sorting

variable {α : Type}

/-- How long a stretch must be for galloping to go on. -/
def leastStretch : Nat := 7

/-- A merge under way: what is left of the two runs, what has been merged, last item first, and the
number of items that must be won in a row before the merge gallops. -/
structure Merging (α : Type) where
  left : List α
  right : List α
  merged : List α
  threshold : Nat

/-- The order that a merge goes by: whether the first of two items comes before the second; nothing if
they have no order. -/
abbrev Order (α : Type) := α → α → Option Bool

namespace Merging

/-- Whether the item of the left run is the next one in the direction of the merge. An item of the
right run goes before one of the left run only if it is smaller. -/
def leftFirst (direction : Direction) (before : Order α) (x y : α) : Option Bool := do
  let smaller ← before y x
  return match direction with
    | .forward => !smaller
    | .backward => smaller

/-- Whether a run is used up. The run that was set aside is, as soon as one item is left of it, which
then goes last. -/
def isDone (direction : Direction) (m : Merging α) : Bool :=
  match direction with
  | .forward => m.left.length ≤ 1 || m.right.isEmpty
  | .backward => m.left.isEmpty || m.right.length ≤ 1

/-- The merged items with what is left of the runs, in the direction of the merge. -/
def finish (direction : Direction) (m : Merging α) : List α :=
  m.merged.reverse ++
    match direction with
    | .forward => m.right ++ m.left
    | .backward => m.left ++ m.right

/-- Some items of the left run are taken. -/
def takeLeft (m : Merging α) (count : Nat) : Merging α :=
  { m with left := m.left.drop count, merged := (m.left.take count).reverse ++ m.merged }

/-- Some items of the right run are taken. -/
def takeRight (m : Merging α) (count : Nat) : Merging α :=
  { m with right := m.right.drop count, merged := (m.right.take count).reverse ++ m.merged }

/-- The left run up to the next item of the right one, and that item. -/
def gallopLeft (direction : Direction) (before : Order α) (m : Merging α) :
    Option (Nat × Merging α) :=
  match m.right with
  | [] => some (0, m)
  | y :: _ => do
    let count ← gallop direction (leftFirst direction before · y) m.left
    let m := m.takeLeft count
    return (count, if m.isDone direction then m else m.takeRight 1)

/-- The right run up to the next item of the left one, and that item. -/
def gallopRight (direction : Direction) (before : Order α) (m : Merging α) :
    Option (Nat × Merging α) :=
  match m.left with
  | [] => some (0, m)
  | x :: _ => do
    let count ← gallop direction (fun y => do return !(← leftFirst direction before x y)) m.right
    let m := m.takeRight count
    return (count, if m.isDone direction then m else m.takeLeft 1)

/-- How a merge goes on: item by item, with what each run has won in a row, or by stretches. -/
inductive Pace
  | walking (left right : Nat)
  | galloping

/-- The merge of the runs and the threshold after it. The first argument bounds the number of steps,
each of which takes an item or changes the pace. -/
def run (direction : Direction) (before : Order α) :
    Nat → Pace → Merging α → Option (List α × Nat)
  | 0, _, m => some (m.finish direction, m.threshold)
  | bound + 1, pace, m =>
    if m.isDone direction then some (m.finish direction, m.threshold)
    else match pace, m.left, m.right with
      | .walking left right, x :: _, y :: _ => do
        if ← leftFirst direction before x y then
          run direction before bound
            (if m.threshold ≤ left + 1 then .galloping else .walking (left + 1) 0) (m.takeLeft 1)
        else
          run direction before bound
            (if m.threshold ≤ right + 1 then .galloping else .walking 0 (right + 1)) (m.takeRight 1)
      | .galloping, _, _ => do
        let (left, m) ← m.gallopLeft direction before
        if m.isDone direction then run direction before bound .galloping m
        else
          let (right, m) ← m.gallopRight direction before
          if m.isDone direction then run direction before bound .galloping m
          else if leastStretch ≤ left ∨ leastStretch ≤ right then
            run direction before bound .galloping
              { m with threshold := max 1 (m.threshold - 1) }
          else
            run direction before bound (.walking 0 0) { m with threshold := m.threshold + 1 }
      | _, _, _ => some (m.finish direction, m.threshold)

end Merging

/-- The merge of two runs, the shorter of which is set aside, and the threshold after it. -/
def mergeAll (before : Order α) (threshold : Nat) (left right : List α) : Option (List α × Nat) :=
  let steps := left.length + right.length + 1
  if left.length ≤ right.length then
    Merging.run .forward before steps (.walking 0 0)
      (Merging.takeRight ⟨left, right, [], threshold⟩ 1)
  else
    (Merging.run .backward before steps (.walking 0 0)
      (Merging.takeLeft ⟨left.reverse, right.reverse, [], threshold⟩ 1)).map
        fun (merged, threshold) => (merged.reverse, threshold)

/-- The merge of two neighbouring runs, and the threshold after it. What is in place already, at the
start of the left run and at the end of the right one, is left alone. -/
def mergeRuns (before : Order α) (threshold : Nat) (left right : List α) :
    Option (List α × Nat) :=
  match right with
  | [] => some (left, threshold)
  | y :: _ => do
    let settled ← gallop .forward (fun x => do return !(← before y x)) left
    let pending := left.drop settled
    match pending.getLast? with
    | none => return (left ++ right, threshold)
    | some x =>
      let last ← gallop .backward (fun y => do return !(← before y x)) right.reverse
      let count := right.length - last
      if count = 0 then return (left ++ right, threshold)
      else
        let (merged, threshold) ← mergeAll before threshold pending (right.take count)
        return (left.take settled ++ merged ++ right.drop count, threshold)

end NotaryNetwork.Sorting
