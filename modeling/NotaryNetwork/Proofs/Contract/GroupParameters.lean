import NotaryNetwork.Contract.Catalogue
import NotaryNetwork.Proofs.Contract.Pattern
import NotaryNetwork.Proofs.Contract.Schema
import NotaryNetwork.Proofs.Table

/-!
# The contract of group parameters

An array of objects follows the contract if its items are different and every item follows the
schema of entries (`validate_array_iff`). An object of a key and a value, both texts, follows that
schema if the pattern of keys accepts its key and its value is not empty (`violations_entry_iff`).
Objects have no order, so arrays of them are searched pair by pair for a repeated item
(`distinct_objects`).
-/

namespace NotaryNetwork

/-! ## Repeated items -/

namespace Json.Value

theorem allDiffer_iff {vs : List Value} :
    allDiffer vs = true ↔ vs.Pairwise fun x y => same x y = false := by
  induction vs with
  | nil => simp [allDiffer]
  | cons v vs ih =>
    rw [allDiffer, Bool.and_eq_true, ih, List.pairwise_cons, List.all_eq_true]
    simp

/-- Objects cannot be sorted, so all pairs of them are compared. -/
theorem distinct_objects (objects : List (List (Str × Value))) :
    distinct (objects.map .object) = allDiffer (objects.map .object) := by
  match objects with
  | [] => rfl
  | [members] => rfl
  | first :: second :: rest =>
    have unordered : Sorting.sort before? ((first :: second :: rest).map Value.object) = none := rfl
    rw [distinct, unordered]

theorem sameMembers_iff {xs ys : List (Str × Value)} :
    sameMembers xs ys = true ↔ ∀ m ∈ xs, ∃ y, ys.lookup m.1 = some y ∧ same m.2 y = true := by
  induction xs with
  | nil => simp [sameMembers]
  | cons m xs ih =>
    obtain ⟨key, x⟩ := m
    rw [sameMembers, Bool.and_eq_true, ih, List.forall_mem_cons]
    refine and_congr_left fun _ => ?_
    cases ys.lookup key <;> simp

/-- The order of members does not matter. -/
theorem same_object_of_perm {xs xs' ys ys' : List (Str × Value)}
    (nodup : (ys'.map (·.1)).Nodup) (first : xs.Perm xs') (second : ys.Perm ys') :
    same (.object xs) (.object ys) = same (.object xs') (.object ys') := by
  have members : sameMembers xs ys = sameMembers xs' ys' := by
    rw [Bool.eq_iff_iff, sameMembers_iff, sameMembers_iff]
    simp only [lookup_eq_of_perm nodup second, first.mem_iff]
  rw [same, same, members, first.length_eq, second.length_eq]

/-- An object with a key and a value. -/
def entry (key value : Str) : Value := .object [("key", .string key), ("value", .string value)]

theorem same_entry (key value key' value' : Str) :
    same (entry key value) (entry key' value') = (key == key' && value == value') := by
  simp [entry, same, sameMembers, List.lookup_cons]

end Json.Value

/-! ## The schema of entries -/

namespace Contract

open Json (Str Value)

/-- The schema of one entry. -/
def entrySchema : Schema := [
  .type .object,
  .required ["key", "value"],
  .closed,
  .properties [
    ("key", [.type .string, .pattern entryKey]),
    ("value", [.type .string, .minLength 1])]]

theorem violations_entry_iff {key value : Str} :
    entrySchema.violations (.entry key value) = [] ↔
      entryKey.acceptsStr key = true ∧ 1 ≤ value.length := by
  unfold Schema.violations entrySchema Value.entry
  simp [keywordViolations, Keyword.violations, propertyViolations, declaredKeys, demand_eq_nil,
    ValueType.admits, unexpected, List.lookup_cons]

/-- **Arrays of different items that follow the schema of entries follow the contract.** -/
theorem validate_array_iff {vs : List Value} :
    groupParameters.validate (.array vs) = .ok () ↔
      Value.distinct vs = true ∧ ∀ v ∈ vs, entrySchema.violations v = [] := by
  have parts : groupParameters.violations (.array vs) =
      demand (Value.distinct vs) .repeatedItems ++
        (Keyword.items entrySchema).violations [] (.array vs) := by
    show demand (Value.distinct vs) .repeatedItems ++ (_ ++ []) = _
    rw [List.append_nil]
    rfl
  rw [Schema.validate_eq_ok, parts, List.append_eq_nil_iff, demand_eq_nil, items_eq_nil]

end Contract

end NotaryNetwork
