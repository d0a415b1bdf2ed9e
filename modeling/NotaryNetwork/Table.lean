/-!
# Tables

Lists without repetitions and tables in the order of first insertion. `distinct` keeps the first
occurrence of every value. A table has every key once; a key that is inserted again keeps its place
and gets the new value (`keys_put`).
-/

namespace NotaryNetwork

variable {α β : Type} [DecidableEq α]

/-! ## Distinct values -/

/-- The values in the order of their first occurrences. -/
def distinct : List α → List α
  | [] => []
  | x :: xs => x :: (distinct xs).filter (· ≠ x)

/-- The first value that has occurred before, among `seen` or in the list. -/
def firstRepeat? (seen : List α) : List α → Option α
  | [] => none
  | x :: xs => if x ∈ seen then some x else firstRepeat? (x :: seen) xs

@[simp]
theorem mem_distinct {x : α} {xs : List α} : x ∈ distinct xs ↔ x ∈ xs := by
  induction xs with
  | nil => simp [distinct]
  | cons y ys ih => by_cases h : x = y <;> simp [distinct, ih, h]

theorem nodup_distinct (xs : List α) : (distinct xs).Nodup := by
  induction xs with
  | nil => exact List.nodup_nil
  | cons x xs ih =>
    refine List.nodup_cons.mpr ⟨by simp, ?_⟩
    exact List.Pairwise.filter _ ih

theorem firstRepeat?_eq_none_iff {seen xs : List α} :
    firstRepeat? seen xs = none ↔ xs.Nodup ∧ ∀ x ∈ xs, x ∉ seen := by
  induction xs generalizing seen with
  | nil => simp [firstRepeat?]
  | cons x xs ih =>
    by_cases h : x ∈ seen
    · simp [firstRepeat?, h]
    · rw [firstRepeat?, if_neg h, ih]
      constructor
      · rintro ⟨nodup, apart⟩
        refine ⟨List.nodup_cons.mpr ⟨fun hx => apart x hx (by simp), nodup⟩, ?_⟩
        intro y hy
        rcases List.mem_cons.mp hy with rfl | hy
        · exact h
        · exact fun hs => apart y hy (List.mem_cons_of_mem _ hs)
      · rintro ⟨nodup, apart⟩
        obtain ⟨new, nodup⟩ := List.nodup_cons.mp nodup
        refine ⟨nodup, fun y hy hs => ?_⟩
        rcases List.mem_cons.mp hs with rfl | hs
        · exact new hy
        · exact apart y (List.mem_cons_of_mem _ hy) hs

theorem nodup_of_firstRepeat? {xs : List α} (h : firstRepeat? [] xs = none) : xs.Nodup :=
  (firstRepeat?_eq_none_iff.mp h).1

/-! ## Entries -/

/-- Entries with a key set: at its place if it is there, else at the end. -/
def put (key : α) (value : β) : List (α × β) → List (α × β)
  | [] => [(key, value)]
  | (k, v) :: rest => if k = key then (k, value) :: rest else (k, v) :: put key value rest

theorem keys_put (key : α) (value : β) (entries : List (α × β)) :
    (put key value entries).map (·.1) =
      if key ∈ entries.map (·.1) then entries.map (·.1) else entries.map (·.1) ++ [key] := by
  induction entries with
  | nil => simp [put]
  | cons entry rest ih =>
    obtain ⟨k, v⟩ := entry
    by_cases h : k = key
    · simp [put, h]
    · have h' : ¬ key = k := fun e => h e.symm
      rw [put, if_neg h, List.map_cons, ih]
      by_cases m : key ∈ rest.map (·.1) <;> simp [m, h']

theorem nodup_keys_put {entries : List (α × β)} (h : (entries.map (·.1)).Nodup) (key : α)
    (value : β) : ((put key value entries).map (·.1)).Nodup := by
  rw [keys_put]
  split
  · exact h
  · rename_i new
    exact List.nodup_append.mpr ⟨h, by simp, by
      intro x hx y hy
      have : y = key := by simpa using hy
      subst this
      exact fun e => new (e ▸ hx)⟩

/-! ## Tables -/

/-- Values by distinct keys, in the order in which the keys came. -/
structure Table (α β : Type) [DecidableEq α] where
  entries : List (α × β)
  nodup : (entries.map (·.1)).Nodup

namespace Table

def empty : Table α β := ⟨[], by simp⟩

def keys (t : Table α β) : List α := t.entries.map (·.1)

/-- The values in the order of their keys. -/
def values (t : Table α β) : List β := t.entries.map (·.2)

def size (t : Table α β) : Nat := t.entries.length

def get? (t : Table α β) (key : α) : Option β := t.entries.lookup key

def insert (t : Table α β) (key : α) (value : β) : Table α β :=
  ⟨put key value t.entries, nodup_keys_put t.nodup key value⟩

/-- The table of entries that are inserted one after the other. -/
def ofList (entries : List (α × β)) : Table α β :=
  entries.foldl (fun t (key, value) => t.insert key value) empty

end Table

end NotaryNetwork
