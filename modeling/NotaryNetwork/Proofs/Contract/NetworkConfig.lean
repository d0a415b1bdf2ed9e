import NotaryNetwork.Contract.Catalogue
import NotaryNetwork.Proofs.Contract.Schema

/-!
# The contract of network configurations

A document follows the contract if it is an object without other keys than members, notaries and a
scheme name, the members are texts that are not empty, the scheme name is one too, and every notary
has such a text for its name and at least one version, all of them positive whole numbers
(`validate_networkConfig_iff`).
-/

namespace NotaryNetwork.Contract

open Json (Str Value)

/-- The schema of a protocol version. -/
def versionSchema : Schema := [.type .integer, .minimum 1]

/-- The schema of the versions of a notary. -/
def versionsSchema : Schema := [.type .array, .minItems 1, .items versionSchema]

/-- The schema of a notary. -/
def notarySchema : Schema :=
  recordSchema ["name", "protocol_versions"]
    [("name", nonempty), ("protocol_versions", versionsSchema)]

theorem violations_nonempty_iff {v : Value} :
    nonempty.violations v = [] ↔ ∃ s, v = .string s ∧ 1 ≤ s.length := by
  unfold Schema.violations nonempty
  cases v <;>
    simp [keywordViolations, Keyword.violations, demand_eq_nil, ValueType.admits]

theorem violations_versions_iff {v : Value} :
    versionsSchema.violations v = [] ↔
      ∃ vs, v = .array vs ∧ vs ≠ [] ∧ ∀ x ∈ vs, versionSchema.violations x = [] := by
  unfold Schema.violations versionsSchema
  cases v with
  | array vs =>
    simp only [keywordViolations, List.append_nil, List.append_eq_nil_iff, type_eq_nil,
      minItems_eq_nil, items_eq_nil]
    simp [ValueType.admits, Schema.violations, Nat.one_le_iff_ne_zero]
  | _ => simp [keywordViolations, Keyword.violations, demand_eq_nil, ValueType.admits]

/-! ## Versions -/

theorem less_finite_iff {q : Rat} {n : Int} (whole : q.den = 1) :
    Json.Binary64.less (.finite q) (.finite n) = true ↔ q.num < n := by
  unfold Json.Binary64.less
  rw [decide_eq_true_eq, Rat.lt_iff, whole]
  simp

theorem toInt?_finite_iff {q : Rat} {n : Int} :
    (Value.real (.finite q)).toInt? = some n ↔ q.den = 1 ∧ q.num = n := by
  simp [Value.toInt?, Json.Binary64.toInt?]

/-- A whole number is compared as what it stands for, however it is written. -/
theorem atLeast_iff {v : Value} {least n : Int} (whole : v.toInt? = some n) :
    atLeast least v = true ↔ least ≤ n := by
  cases v with
  | int m =>
    cases whole
    exact decide_eq_true_iff
  | real x =>
    cases x with
    | finite q =>
      obtain ⟨den, rfl⟩ := toInt?_finite_iff.mp whole
      rw [atLeast, Bool.not_eq_true', ← Bool.not_eq_true, less_finite_iff den, Int.not_lt]
    | _ => cases whole
  | _ => cases whole

/-- **Versions are the positive whole numbers, of any size and written either way.** -/
theorem violations_version_iff {v : Value} :
    versionSchema.violations v = [] ↔ ∃ n, v.toInt? = some n ∧ 1 ≤ n := by
  unfold Schema.violations versionSchema
  simp only [keywordViolations, Keyword.violations, demand_eq_nil, ValueType.admits,
    List.append_eq_nil_iff, and_true, Option.isSome_iff_exists]
  rw [← exists_and_right]
  exact exists_congr fun n => and_congr_right fun whole => atLeast_iff whole

theorem violations_version_int {n : Int} : versionSchema.violations (.int n) = [] ↔ 1 ≤ n := by
  simp [violations_version_iff, Value.toInt?]

/-! ## Notaries and configurations -/

theorem violations_notary_iff {v : Value} :
    notarySchema.violations v = [] ↔ ∃ members, v = .object members ∧
      (∀ key ∈ members.map (·.1), key ∈ [Str.text "name", .text "protocol_versions"]) ∧
      (∃ s, members.lookup (.text "name") = some (.string s) ∧ 1 ≤ s.length) ∧
      ∃ vs, members.lookup (.text "protocol_versions") = some (.array vs) ∧ vs ≠ [] ∧
        ∀ x ∈ vs, versionSchema.violations x = [] := by
  unfold notarySchema
  rw [violations_record_iff]
  refine exists_congr fun members => and_congr_right fun _ => ?_
  simp only [List.forall_mem_cons, List.not_mem_nil, false_imp_iff, implies_true, and_true,
    violations_nonempty_iff, violations_versions_iff]
  constructor
  · rintro ⟨⟨⟨name, hn⟩, versions, hv⟩, keys, names, lists⟩
    obtain ⟨s, rfl, filled⟩ := names name hn
    obtain ⟨vs, rfl, some_version, positive⟩ := lists versions hv
    exact ⟨keys, ⟨s, hn, filled⟩, vs, hv, some_version, positive⟩
  · rintro ⟨keys, ⟨s, hn, filled⟩, vs, hv, some_version, positive⟩
    refine ⟨⟨⟨_, hn⟩, _, hv⟩, keys, ?_, ?_⟩
    · intro x same
      cases hn.symm.trans same
      exact ⟨s, rfl, filled⟩
    · intro x same
      cases hv.symm.trans same
      exact ⟨vs, rfl, some_version, positive⟩

/-- The properties of a configuration. -/
def configProperties : List (String × Schema) :=
  [("members", [.type .array, .items nonempty]), ("notaries", [.type .array, .items notarySchema]),
    ("scheme_name", nonempty)]

theorem violations_networkConfig (v : Value) :
    networkConfig.violations v = (recordSchema [] configProperties).violations v := by
  cases v <;> rfl

/-- **What follows the contract of configurations.** -/
theorem validate_networkConfig_iff {v : Value} :
    networkConfig.validate v = .ok () ↔ ∃ members, v = .object members ∧
      (∀ key ∈ members.map (·.1), key ∈ [Str.text "members", .text "notaries", .text "scheme_name"]) ∧
      (∀ x, members.lookup (.text "members") = some x →
        ∃ vs, x = .array vs ∧ ∀ y ∈ vs, ∃ s, y = .string s ∧ 1 ≤ s.length) ∧
      (∀ x, members.lookup (.text "notaries") = some x →
        ∃ vs, x = .array vs ∧ ∀ y ∈ vs, notarySchema.violations y = []) ∧
      ∀ x, members.lookup (.text "scheme_name") = some x → ∃ s, x = .string s ∧ 1 ≤ s.length := by
  rw [Schema.validate_eq_ok, violations_networkConfig, violations_record_iff]
  simp only [configProperties, List.forall_mem_cons, List.not_mem_nil, false_imp_iff, implies_true,
    and_true, true_and, violations_list_iff, violations_nonempty_iff]
  rfl

end NotaryNetwork.Contract
