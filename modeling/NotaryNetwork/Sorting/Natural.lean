import NotaryNetwork.Sorting.Merge

/-!
# Sorting by natural runs

A list is cut into runs that rise, or fall and are then turned round; short runs are lengthened by
putting further items into their places. A run is merged with the ones before it as soon as the
boundary between them is finer, on a scale of halvings of the whole list, than the one that follows.
Equals keep their order.

The sort fails if two items that it compares have no order. Which items it compares is fixed, and so
is what becomes of a list that the order does not arrange, such as one with items that come neither
before nor after any other.
-/

namespace NotaryNetwork.Sorting

variable {α : Type}

/-! ## Runs -/

/-- The run that goes on from a last item, newest item first, and the items after it. In a falling run
every item comes before the one it follows, in a rising run none does. -/
def extendRun (before : Order α) (falling : Bool) (last : α) (run : List α) :
    List α → Option (List α × List α)
  | [] => some (last :: run, [])
  | x :: xs => do
    if (← before x last) = falling then extendRun before falling x (last :: run) xs
    else return (last :: run, x :: xs)

/-- The first run of a list, in rising order, and the items after it. -/
def firstRun (before : Order α) : List α → Option (List α × List α)
  | [] => some ([], [])
  | [x] => some ([x], [])
  | x :: y :: rest => do
    let falling ← before y x
    let (run, rest) ← extendRun before falling y [x] rest
    return (if falling then run else run.reverse, rest)

/-- A run with one more item in its place, after all that it does not come before. -/
def insert (before : Order α) (run : List α) (x : α) : Option (List α) := do
  let items := run.toArray
  let test (i : Nat) : Option Bool :=
    match items[i]? with
    | some y => do return !(← before x y)
    | none => some false
  let place ← halve .forward test run.length 0 run.length
  return run.take place ++ x :: run.drop place

/-- The least length of a run in a list of some length: the length halved until it is below 64, and one
more if a half was not whole. The first argument bounds the number of halvings. -/
def leastRun : Nat → Nat → Bool → Nat
  | 0, n, rest => n + rest.toNat
  | bound + 1, n, rest =>
    if n < 64 then n + rest.toNat else leastRun bound (n / 2) (rest || n % 2 == 1)

/-! ## Pending runs -/

/-- A run that waits to be merged: where it starts, its items, and the fineness of its boundary with
the next run. -/
structure Pending (α : Type) where
  start : Nat
  items : List α
  fineness : Nat

/-- How many halvings of a list of length `n` it takes to tell two middles apart. The middles are given
doubled; the first argument bounds the number of halvings. -/
def halvings (n : Nat) : Nat → Nat → Nat → Nat
  | 0, _, _ => 1
  | bound + 1, a, b =>
    if n ≤ a then halvings n bound (2 * (a - n)) (2 * (b - n)) + 1
    else if n ≤ b then 1
    else halvings n bound (2 * a) (2 * b) + 1

/-- The fineness of the boundary of two neighbouring runs in a list of length `n`. -/
def boundary (n start left right : Nat) : Nat :=
  let a := 2 * start + left
  halvings n (n.log2 + 2) a (a + left + right)

/-- The two last runs merged while the boundary between them is finer than the one that comes. The last
run is the first of the list. -/
def settle (before : Order α) (fineness : Nat) :
    Nat → Nat → List (Pending α) → Option (List (Pending α) × Nat)
  | 0, threshold, runs => some (runs, threshold)
  | bound + 1, threshold, runs =>
    match runs with
    | right :: left :: rest =>
      if fineness < left.fineness then do
        let (items, threshold) ← mergeRuns before threshold left.items right.items
        settle before fineness bound threshold ({ left with items := items } :: rest)
      else some (runs, threshold)
    | runs => some (runs, threshold)

/-- All runs merged into one. Of the last three the outer one that is shorter goes first. -/
def collapse (before : Order α) : Nat → Nat → List (List α) → Option (List α)
  | 0, _, runs => some runs.reverse.flatten
  | bound + 1, threshold, runs =>
    match runs with
    | [] => some []
    | [run] => some run
    | [right, left] => do
      let (merged, _) ← mergeRuns before threshold left right
      return merged
    | right :: middle :: left :: rest =>
      if left.length < right.length then do
        let (merged, threshold) ← mergeRuns before threshold left middle
        collapse before bound threshold (right :: merged :: rest)
      else do
        let (merged, threshold) ← mergeRuns before threshold middle right
        collapse before bound threshold (merged :: left :: rest)

/-! ## Sorting -/

/-- The runs of a list from a place on, the last run first, and the threshold of the merges so far. The
first argument bounds the number of runs, the second is the length of the whole list. -/
def collect (before : Order α) (size : Nat) :
    Nat → Nat → List (Pending α) → List α → Option (List (Pending α) × Nat)
  | 0, threshold, runs, _ => some (runs, threshold)
  | _, threshold, runs, [] => some (runs, threshold)
  | bound + 1, threshold, runs, items => do
    let (run, rest) ← firstRun before items
    let missing := leastRun size size false - run.length
    let run ← (rest.take missing).foldlM (insert before) run
    let start := size - items.length
    let new : Pending α := ⟨start, run, 0⟩
    match runs with
    | [] => collect before size bound threshold [new] (rest.drop missing)
    | last :: _ =>
      let fineness := boundary size last.start last.items.length run.length
      let (runs, threshold) ← settle before fineness runs.length threshold runs
      let runs := match runs with
        | last :: others => { last with fineness := fineness } :: others
        | [] => []
      collect before size bound threshold (new :: runs) (rest.drop missing)

/-- The items in order; nothing if two items that are compared have no order. -/
def sort (before : Order α) (items : List α) : Option (List α) := do
  let (runs, threshold) ← collect before items.length items.length leastStretch [] items
  collapse before runs.length threshold (runs.map (·.items))

end NotaryNetwork.Sorting
