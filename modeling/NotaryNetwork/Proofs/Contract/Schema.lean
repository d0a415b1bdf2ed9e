import NotaryNetwork.Contract.Validator

/-!
# What schemas demand

The demands of the keywords that the contracts use, put in terms of documents. An array follows a
schema of items if all its items do (`violations_list_iff`), and an object follows a schema of
records if it has the keys that are required, no others than those declared, and values that follow
their schemas (`violations_record_iff`).
-/

namespace NotaryNetwork.Contract

open Json (Str Value)

/-! ## Single demands -/

theorem Schema.validate_eq_ok {schema : Schema} {v : Value} :
    schema.validate v = .ok () ↔ schema.violations v = [] := by
  unfold Schema.validate
  cases schema.violations v <;> simp

theorem minItems_eq_nil {declared : List String} {least : Nat} {vs : List Value} :
    (Keyword.minItems least).violations declared (.array vs) = [] ↔ least ≤ vs.length := by
  rw [Keyword.violations, demand_eq_nil, decide_eq_true_eq]

theorem map_snd_places (vs : List Value) : (places vs).map (·.2) = vs := by
  unfold places
  exact List.map_snd_zip (by simp)

theorem items_eq_nil {declared : List String} {schema : Schema} {vs : List Value} :
    (Keyword.items schema).violations declared (.array vs) = [] ↔
      ∀ v ∈ vs, schema.violations v = [] := by
  rw [Keyword.violations, List.flatMap_eq_nil_iff]
  constructor
  · intro h v hv
    rw [← map_snd_places vs] at hv
    obtain ⟨place, member, rfl⟩ := List.mem_map.mp hv
    exact List.map_eq_nil_iff.mp (h place member)
  · intro h place member
    refine List.map_eq_nil_iff.mpr (h place.2 ?_)
    rw [← map_snd_places vs]
    exact List.mem_map.mpr ⟨place, member, rfl⟩

theorem unexpected_eq_nil {declared : List String} {members : List (Str × Value)} :
    unexpected declared members = [] ↔ ∀ key ∈ members.map (·.1), key ∈ declared.map Str.text := by
  unfold unexpected
  rw [← List.length_eq_zero_iff, List.length_mergeSort, List.length_eq_zero_iff,
    List.filter_eq_nil_iff]
  simp

theorem closed_eq_nil {declared : List String} {members : List (Str × Value)} :
    Keyword.closed.violations declared (.object members) = [] ↔
      ∀ key ∈ members.map (·.1), key ∈ declared.map Str.text := by
  rw [← unexpected_eq_nil, Keyword.violations]
  cases unexpected declared members <;> simp

theorem required_eq_nil {declared keys : List String} {members : List (Str × Value)} :
    (Keyword.required keys).violations declared (.object members) = [] ↔
      ∀ key ∈ keys, ∃ v, members.lookup (.text key) = some v := by
  rw [Keyword.violations, List.map_eq_nil_iff, List.filter_eq_nil_iff]
  apply forall₂_congr
  intro key _
  cases members.lookup (.text key) <;> simp

theorem properties_eq_nil {schemas : List (String × Schema)} {members : List (Str × Value)} :
    propertyViolations schemas members = [] ↔
      ∀ entry ∈ schemas, ∀ v, members.lookup (.text entry.1) = some v → entry.2.violations v = [] := by
  induction schemas with
  | nil => simp [propertyViolations]
  | cons entry rest ih =>
    obtain ⟨key, schema⟩ := entry
    rw [propertyViolations, List.append_eq_nil_iff, ih, List.forall_mem_cons]
    refine and_congr_left fun _ => ?_
    cases members.lookup (.text key) with
    | none => simp
    | some v => simp [Schema.violations]

/-! ## Arrays and records -/

theorem violations_list_iff {schema : Schema} {v : Value} :
    Schema.violations [.type .array, .items schema] v = [] ↔
      ∃ vs, v = .array vs ∧ ∀ x ∈ vs, schema.violations x = [] := by
  unfold Schema.violations
  cases v with
  | array vs =>
    simp only [keywordViolations, List.append_nil, List.append_eq_nil_iff, type_eq_nil,
      items_eq_nil]
    simp [ValueType.admits, Schema.violations]
  | _ => simp [keywordViolations, Keyword.violations, demand_eq_nil, ValueType.admits]

/-- The schema of records with given properties, some of which are required. -/
def recordSchema (keys : List String) (schemas : List (String × Schema)) : Schema :=
  [.type .object, .required keys, .closed, .properties schemas]

theorem violations_record_iff {keys : List String} {schemas : List (String × Schema)} {v : Value} :
    (recordSchema keys schemas).violations v = [] ↔
      ∃ members, v = .object members ∧ (∀ key ∈ keys, ∃ x, members.lookup (.text key) = some x) ∧
        (∀ key ∈ members.map (·.1), key ∈ (schemas.map (·.1)).map Str.text) ∧
        ∀ entry ∈ schemas, ∀ x, members.lookup (.text entry.1) = some x → entry.2.violations x = [] := by
  unfold Schema.violations recordSchema
  cases v with
  | object members =>
    have properties : Keyword.violations (schemas.map (·.1)) (.properties schemas)
        (.object members) = [] ↔
        ∀ entry ∈ schemas, ∀ x, members.lookup (.text entry.1) = some x → entry.2.violations x = [] := by
      rw [Keyword.violations, properties_eq_nil]
    simp only [keywordViolations, declaredKeys, List.append_nil, List.append_eq_nil_iff,
      type_eq_nil, required_eq_nil, closed_eq_nil, properties]
    simp [ValueType.admits, Schema.violations]
  | _ => simp [keywordViolations, Keyword.violations, demand_eq_nil, ValueType.admits]

end NotaryNetwork.Contract
