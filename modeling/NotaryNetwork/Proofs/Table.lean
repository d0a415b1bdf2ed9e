import NotaryNetwork.Table

/-!
# Tables

Where keys are distinct a lookup finds exactly the entries (`lookup_eq_some_iff_mem`), so a table
gives a value for a key if and only if the pair is among its entries. An insertion of a new key puts
its entry at the end (`entries_insert`), so a table made of entries with distinct keys has just
these entries, in their order (`entries_ofList`). Where keys are repeated, a table has them in the
order of their first occurrences (`keys_ofList`) with the values of the last (`get?_ofList_of_last`).
-/

namespace NotaryNetwork

variable {α β : Type} [DecidableEq α]

/-! ## Distinct values -/

theorem distinct_of_nodup {xs : List α} (h : xs.Nodup) : distinct xs = xs := by
  induction xs with
  | nil => rfl
  | cons x xs ih =>
    obtain ⟨new, nodup⟩ := List.nodup_cons.mp h
    rw [distinct, ih nodup, List.filter_eq_self.mpr]
    intro y hy
    exact decide_eq_true fun same => new (same ▸ hy)

/-- A value that comes at the end is new or changes nothing. -/
theorem distinct_concat (xs : List α) (x : α) :
    distinct (xs ++ [x]) = if x ∈ xs then distinct xs else distinct xs ++ [x] := by
  induction xs with
  | nil => rfl
  | cons y xs ih =>
    rw [List.cons_append, distinct, ih, distinct]
    by_cases later : x ∈ xs
    · rw [if_pos later, if_pos (List.mem_cons_of_mem y later)]
    · rw [if_neg later, List.filter_append]
      by_cases same : x = y <;> simp [same, later]

/-- Values that come later are kept or not whether or not the first ones are distinct. -/
theorem distinct_distinct_append (xs ys : List α) :
    distinct (distinct xs ++ ys) = distinct (xs ++ ys) := by
  induction ys generalizing xs with
  | nil => rw [List.append_nil, List.append_nil, distinct_of_nodup (nodup_distinct xs)]
  | cons y ys ih =>
    -- The first of the later values is counted among the first ones.
    have one : distinct (distinct xs ++ [y]) = distinct (xs ++ [y]) := by
      rw [distinct_concat, distinct_concat, distinct_of_nodup (nodup_distinct xs)]
      simp only [mem_distinct]
    rw [List.append_cons, List.append_cons xs, ← ih, one, ih]

/-! ## Lookups -/

theorem lookup_eq_some_iff_mem {entries : List (α × β)} (h : (entries.map (·.1)).Nodup) {k : α}
    {v : β} : entries.lookup k = some v ↔ (k, v) ∈ entries := by
  induction entries with
  | nil => simp
  | cons entry rest ih =>
    obtain ⟨key, value⟩ := entry
    obtain ⟨new, nodup⟩ := List.nodup_cons.mp h
    rw [List.lookup_cons, List.mem_cons, Prod.mk.injEq]
    by_cases same : k = key
    · subst same
      have absent : (k, v) ∉ rest := fun hm => new (List.mem_map.mpr ⟨(k, v), hm, rfl⟩)
      simp [absent, eq_comm]
    · rw [beq_false_of_ne same, ih nodup]
      simp [same]

theorem lookup_eq_of_perm {entries others : List (α × β)} (h : (entries.map (·.1)).Nodup)
    (perm : others.Perm entries) (k : α) : others.lookup k = entries.lookup k := by
  have h' : (others.map (·.1)).Nodup := (perm.map _).nodup_iff.mpr h
  refine Option.ext fun v => ?_
  rw [lookup_eq_some_iff_mem h, lookup_eq_some_iff_mem h', perm.mem_iff]

/-! ## Entries -/

theorem put_of_not_mem {key : α} {entries : List (α × β)} (h : key ∉ entries.map (·.1))
    (value : β) :
    put key value entries = entries ++ [(key, value)] := by
  induction entries with
  | nil => rfl
  | cons entry rest ih =>
    obtain ⟨k, v⟩ := entry
    obtain ⟨other, absent⟩ := not_or.mp (mt List.mem_cons.mpr h)
    rw [put, if_neg (Ne.symm other), ih absent, List.cons_append]

theorem mem_put {key : α} {value : β} {entries : List (α × β)} {entry : α × β}
    (h : entry ∈ put key value entries) : entry = (key, value) ∨ entry ∈ entries := by
  induction entries with
  | nil => exact .inl (List.mem_singleton.mp h)
  | cons first rest ih =>
    obtain ⟨k, v⟩ := first
    unfold put at h
    split at h
    · rename_i same
      subst same
      rcases List.mem_cons.mp h with rfl | h
      · exact .inl rfl
      · exact .inr (List.mem_cons_of_mem _ h)
    · rcases List.mem_cons.mp h with rfl | h
      · exact .inr List.mem_cons_self
      · exact (ih h).imp_right (List.mem_cons_of_mem _)

theorem lookup_put (key k : α) (value : β) (entries : List (α × β)) :
    (put key value entries).lookup k = if k = key then some value else entries.lookup k := by
  induction entries with
  | nil =>
    rw [put, List.lookup_cons]
    by_cases same : k = key
    · rw [if_pos same, beq_iff_eq.mpr same]
    · rw [if_neg same, beq_false_of_ne same]
  | cons entry rest ih =>
    obtain ⟨first, v⟩ := entry
    by_cases here : first = key
    · rw [put, if_pos here, List.lookup_cons, List.lookup_cons, ← here]
      by_cases same : k = first
      · rw [if_pos same, beq_iff_eq.mpr same]
      · rw [if_neg same, beq_false_of_ne same]
    · rw [put, if_neg here, List.lookup_cons, List.lookup_cons, ih]
      by_cases same : k = first
      · have other : ¬ k = key := fun own => here (same.symm.trans own)
        rw [if_neg other, if_neg other, beq_iff_eq.mpr same]
      · rw [beq_false_of_ne same]

namespace Table

theorem get?_eq_some_iff {t : Table α β} {key : α} {value : β} :
    t.get? key = some value ↔ (key, value) ∈ t.entries :=
  lookup_eq_some_iff_mem t.nodup

theorem eq_of_entries {t t' : Table α β} (h : t.entries = t'.entries) : t = t' := by
  cases t
  cases t'
  cases h
  rfl

/-- A longer table gives the same values. -/
theorem get?_of_prefix {t t' : Table α β} (h : t.entries <+: t'.entries) {key : α} {value : β}
    (found : t.get? key = some value) : t'.get? key = some value :=
  get?_eq_some_iff.mpr (h.subset (get?_eq_some_iff.mp found))

theorem keys_eq_map (t : Table α β) : t.keys = t.entries.map (·.1) := rfl

theorem values_eq_map (t : Table α β) : t.values = t.entries.map (·.2) := rfl

theorem nodup_keys (t : Table α β) : t.keys.Nodup := t.nodup

@[simp]
theorem entries_empty : (empty : Table α β).entries = [] := rfl

@[simp]
theorem keys_empty : (empty : Table α β).keys = [] := rfl

theorem entries_insert {t : Table α β} {key : α} (new : key ∉ t.keys) (value : β) :
    (t.insert key value).entries = t.entries ++ [(key, value)] :=
  put_of_not_mem new value

theorem keys_insert {t : Table α β} {key : α} (new : key ∉ t.keys) (value : β) :
    (t.insert key value).keys = t.keys ++ [key] := by
  rw [keys_eq_map, entries_insert new, List.map_append]
  rfl

theorem entries_foldl_insert {t : Table α β} {entries : List (α × β)}
    (h : ((t.entries ++ entries).map (·.1)).Nodup) :
    (entries.foldl (fun t (key, value) => t.insert key value) t).entries =
      t.entries ++ entries := by
  induction entries generalizing t with
  | nil => simp
  | cons entry rest ih =>
    obtain ⟨key, value⟩ := entry
    have new : key ∉ t.keys := by
      intro hm
      rw [List.map_append, List.map_cons] at h
      exact (List.nodup_append.mp h).2.2 key hm key List.mem_cons_self rfl
    have here := entries_insert new value
    rw [List.foldl_cons, ih (by simpa [here] using h), here, List.append_assoc]
    rfl

/-- A key that is inserted comes at the end if it is new and changes nothing of the keys if not. -/
theorem keys_insert_eq_distinct (t : Table α β) (key : α) (value : β) :
    (t.insert key value).keys = distinct (t.keys ++ [key]) := by
  rw [distinct_concat, distinct_of_nodup t.nodup_keys]
  exact keys_put key value t.entries

theorem keys_foldl_insert (t : Table α β) (entries : List (α × β)) :
    (entries.foldl (fun t (key, value) => t.insert key value) t).keys =
      distinct (t.keys ++ entries.map (·.1)) := by
  induction entries generalizing t with
  | nil => rw [List.map_nil, List.append_nil, distinct_of_nodup t.nodup_keys, List.foldl_nil]
  | cons entry rest ih =>
    rw [List.foldl_cons, ih, keys_insert_eq_distinct, distinct_distinct_append, List.append_assoc,
      List.map_cons, List.singleton_append]

/-- **A table has the keys of its entries in the order of their first occurrences.** -/
theorem keys_ofList (entries : List (α × β)) :
    (ofList entries).keys = distinct (entries.map (·.1)) :=
  keys_foldl_insert empty entries

theorem get?_insert (t : Table α β) (key k : α) (value : β) :
    (t.insert key value).get? k = if k = key then some value else t.get? k :=
  lookup_put key k value t.entries

/-- Entries of other keys leave the value of a key as it is. -/
theorem get?_foldl_insert {key : α} {entries : List (α × β)} (other : key ∉ entries.map (·.1))
    (t : Table α β) :
    (entries.foldl (fun t (key, value) => t.insert key value) t).get? key = t.get? key := by
  induction entries generalizing t with
  | nil => rfl
  | cons entry rest ih =>
    obtain ⟨here, later⟩ := not_or.mp (mt List.mem_cons.mpr other)
    rw [List.foldl_cons, ih later, get?_insert, if_neg here]

/-- **A table has the value of the last entry of a key.** -/
theorem get?_ofList_of_last {key : α} {later : List (α × β)} (last : key ∉ later.map (·.1))
    (earlier : List (α × β)) (value : β) :
    (ofList (earlier ++ (key, value) :: later)).get? key = some value := by
  rw [ofList, List.foldl_append, List.foldl_cons, get?_foldl_insert last, get?_insert, if_pos rfl]

/-- A table of entries with distinct keys has these entries. -/
theorem entries_ofList {entries : List (α × β)} (h : (entries.map (·.1)).Nodup) :
    (ofList entries).entries = entries := by
  have nodup : (((empty : Table α β).entries ++ entries).map (·.1)).Nodup := by simpa using h
  unfold ofList
  simpa using entries_foldl_insert nodup

end Table

end NotaryNetwork
