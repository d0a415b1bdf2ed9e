import Mathlib.Data.List.Forall2
import Mathlib.Data.List.Nodup
import NotaryNetwork.Proofs.Build.Encoding
import NotaryNetwork.Proofs.Contract.NetworkConfig
import NotaryNetwork.Proofs.Json.Keys
import NotaryNetwork.Proofs.Table

/-!
# What follows the contract of group parameters

The pattern of keys matches the texts of parameter keys and nothing else (`matches_entryKey_iff`),
so it accepts them with or without a line feed behind them (`accepts_entryKey_iff`): the end of a
text is also found before a line feed that ends it. An object follows the schema of entries if it
has just a key that is accepted and a value that is not empty (`violations_entrySchema_iff`), and a
document follows the contract if it is an array of such objects, no two of them the same
(`violations_groupParameters_iff`).
-/

namespace NotaryNetwork.Contract

open Json (Str Value)
open Text (digits)

/-! ## The pattern of keys -/

/-- A text is the key of a parameter. -/
def IsKey (text : String) : Prop :=
  ∃ key : ParameterKey, text = key.render

/-- A text is the key of a parameter, perhaps with a line feed behind it. -/
def IsLooseKey (text : String) : Prop :=
  IsKey text ∨ ∃ key : ParameterKey, text = key.render ++ "\n"

/-- No text of a key holds a line feed. -/
theorem feed_not_mem_render (key : ParameterKey) : '\n' ∉ key.render.toList := by
  have digit (n : Nat) : '\n' ∉ digits n := fun member =>
    absurd (Text.isDigit_of_mem_digits member) (by decide)
  have tail : '\n' ∉ key.tail := by
    cases key with
    | name n => exact (by decide : '\n' ∉ "name".toList)
    | publicKey n => exact (by decide : '\n' ∉ "keys.0".toList)
    | protocol n => exact (by decide : '\n' ∉ "flow.protocol.name".toList)
    | version n index => exact List.not_mem_append (by decide) (digit index)
  rw [ParameterKey.toList_render]
  exact List.not_mem_append (by decide) (List.not_mem_append (digit _)
    (List.not_mem_cons_of_ne_of_not_mem (by decide) tail))

theorem isKey_iff {text : String} : IsKey text ↔ IsLooseKey text ∧ '\n' ∉ text.toList := by
  constructor
  · rintro ⟨key, rfl⟩
    exact ⟨.inl ⟨key, rfl⟩, feed_not_mem_render key⟩
  · rintro ⟨exact | ⟨key, rfl⟩, feedless⟩
    · exact exact
    · simp at feedless

namespace Pattern

theorem isDigit_of_inRange {c : Char} (h : inRange '0' '9' c = true) : c.isDigit = true := by
  unfold inRange at h
  unfold Char.isDigit
  simpa [Char.le_def] using h

theorem matches_canonicalIndex_iff {cs : List Char} :
    canonicalIndex.Matches cs ↔ ∃ n, cs = digits n := by
  constructor
  · intro h
    have canonical : Text.Canonical cs := by
      rcases h with zero | ⟨_, back, rfl, ⟨c, rfl, first⟩, rest⟩
      · exact .inl zero
      · refine .inr ⟨c, back, rfl, ?_, fun d hd => isDigit_of_inRange (rest d hd)⟩
        simpa [inRange] using first
    exact ⟨_, (Text.digits_ofDigits canonical).symm⟩
  · rintro ⟨n, rfl⟩
    exact matches_canonicalIndex n

/-- **The pattern of keys matches the texts of parameter keys.** -/
theorem matches_entryKey_iff {cs : List Char} :
    entryKey.Matches cs ↔ ∃ key : ParameterKey, cs = key.render.toList := by
  constructor
  · intro h
    simp only [entryKey, Matches] at h
    obtain ⟨_, _, rfl, rfl, _, _, rfl, service, _, _, rfl, rfl, rest⟩ := h
    obtain ⟨n, rfl⟩ := matches_canonicalIndex_iff.mp service
    rcases rest with rfl | rfl | rfl | ⟨_, _, rfl, rfl, index⟩
    · exact ⟨.name n, by rw [ParameterKey.toList_render]; rfl⟩
    · exact ⟨.publicKey n, by rw [ParameterKey.toList_render]; rfl⟩
    · exact ⟨.protocol n, by rw [ParameterKey.toList_render]; rfl⟩
    · obtain ⟨j, rfl⟩ := matches_canonicalIndex_iff.mp index
      exact ⟨.version n j, by rw [ParameterKey.toList_render]; rfl⟩
  · rintro ⟨key, rfl⟩
    exact key.matches_render

/-- **The pattern accepts the texts of keys, with or without a line feed at the end.** -/
theorem accepts_entryKey_iff {s : String} : entryKey.accepts s = true ↔ IsLooseKey s := by
  rw [accepts_iff]
  simp only [matches_entryKey_iff]
  refine or_congr (exists_congr fun key => String.toList_inj) ⟨?_, ?_⟩
  · rintro ⟨_, same, key, rfl⟩
    refine ⟨key, String.toList_inj.mp ?_⟩
    rw [same, String.toList_append]
    rfl
  · rintro ⟨key, rfl⟩
    exact ⟨_, String.toList_append, key, rfl⟩

end Pattern

/-! ## Entries -/

/-- A value is an object with just a key and a value, both texts. -/
def IsEntry (v : Value) (e : String × Str) : Prop :=
  ∃ members, v = .object members ∧
    members.Perm [(.text "key", .text e.1), (.text "value", .string e.2)]

theorem nodup_entry_keys (x y : Value) :
    ([(Str.text "key", x), (Str.text "value", y)].map (·.1)).Nodup := by
  simp

theorem IsEntry.same_iff {v w : Value} {e f : String × Str} (hv : IsEntry v e)
    (hw : IsEntry w f) : Value.same v w = true ↔ e = f := by
  obtain ⟨xs, rfl, first⟩ := hv
  obtain ⟨ys, rfl, second⟩ := hw
  have entries := Value.same_entry (.text e.1) e.2 (.text f.1) f.2
  unfold Value.entry at entries
  rw [Value.same_object_of_perm (nodup_entry_keys _ _) first second, entries, Bool.and_eq_true,
    beq_iff_eq, beq_iff_eq, Str.text.injEq, Prod.ext_iff]

theorem isEntry_entry (key : String) (value : Str) : IsEntry (.entry key value) (key, value) :=
  ⟨_, rfl, .refl _⟩

theorem IsEntry.unique {v : Value} {e f : String × Str} (h : IsEntry v e) (h' : IsEntry v f) :
    e = f :=
  (h.same_iff h').mp ((h.same_iff h).mpr rfl)

theorem IsEntry.differs_iff {v : Value} {e : String × Str} (hv : IsEntry v e) {vs : List Value}
    {entries : List (String × Str)} (h : List.Forall₂ IsEntry vs entries) :
    (∀ w ∈ vs, Value.same v w = false) ↔ e ∉ entries := by
  induction h with
  | nil => simp
  | cons hw _ ih =>
    rw [List.forall_mem_cons, ih, List.mem_cons, not_or, ← Bool.not_eq_true, hv.same_iff hw]

/-- Items are different if the entries are that they are the objects of. -/
theorem pairwise_differ_iff {vs : List Value} {entries : List (String × Str)}
    (h : List.Forall₂ IsEntry vs entries) :
    (vs.Pairwise fun v w => Value.same v w = false) ↔ entries.Nodup := by
  induction h with
  | nil => simp
  | cons hv rest ih => rw [List.pairwise_cons, List.nodup_cons, ih, hv.differs_iff rest]

theorem distinct_entries_iff {vs : List Value} {entries : List (String × Str)}
    (h : List.Forall₂ IsEntry vs entries) : Value.distinct vs = true ↔ entries.Nodup := by
  have objects : ∃ objects : List (List (Str × Value)), vs = objects.map .object := by
    induction h with
    | nil => exact ⟨[], rfl⟩
    | cons hv _ ih =>
      obtain ⟨members, rfl, -⟩ := hv
      obtain ⟨objects, rfl⟩ := ih
      exact ⟨members :: objects, rfl⟩
  obtain ⟨objects, same⟩ := objects
  rw [← pairwise_differ_iff h, same, Value.distinct_objects, Value.allDiffer_iff]

/-! ## The schema of entries -/

/-- The schema of keys. -/
def keySchema : Schema := [.type .string, .pattern entryKey]

theorem violations_keySchema_iff {v : Value} :
    keySchema.violations v = [] ↔ ∃ s, v = .text s ∧ entryKey.accepts s = true := by
  unfold Schema.violations keySchema
  cases v with
  | string s =>
    cases s <;>
      simp [keywordViolations, Keyword.violations, demand_eq_nil, ValueType.admits,
        Pattern.acceptsStr]
  | _ => simp [keywordViolations, Keyword.violations, demand_eq_nil, ValueType.admits]

theorem entrySchema_eq :
    entrySchema = recordSchema ["key", "value"] [("key", keySchema), ("value", nonempty)] := rfl

/-- An object with distinct keys, which are two, has just the two members that are found. -/
theorem perm_entry {members : List (Str × Value)} (nodup : (members.map (·.1)).Nodup)
    (declared : ∀ k ∈ members.map (·.1), k ∈ [Str.text "key", .text "value"]) {x y : Value}
    (key : members.lookup (.text "key") = some x)
    (value : members.lookup (.text "value") = some y) :
    members.Perm [(.text "key", x), (.text "value", y)] := by
  -- Neither list has a member twice, so it is enough that they have the same ones.
  refine (List.perm_ext_iff_of_nodup (List.Nodup.of_map _ nodup)
    (List.Nodup.of_map _ (nodup_entry_keys x y))).mpr fun m => ?_
  simp only [List.mem_cons, List.not_mem_nil, or_false]
  constructor
  · intro member
    have found := (lookup_eq_some_iff_mem nodup (k := m.1) (v := m.2)).mpr member
    have known := declared m.1 (List.mem_map_of_mem member)
    simp only [List.mem_cons, List.not_mem_nil, or_false] at known
    rcases known with name | name
    · rw [name, key] at found
      exact .inl (Prod.ext name (Option.some.inj found).symm)
    · rw [name, value] at found
      exact .inr (Prod.ext name (Option.some.inj found).symm)
  · rintro (rfl | rfl)
    · exact (lookup_eq_some_iff_mem nodup).mp key
    · exact (lookup_eq_some_iff_mem nodup).mp value

/-- **Objects that follow the schema of entries.** -/
theorem violations_entrySchema_iff {v : Value} (h : v.DistinctKeys) :
    entrySchema.violations v = [] ↔ ∃ e, IsEntry v e ∧ IsLooseKey e.1 ∧ e.2 ≠ .text "" := by
  simp only [entrySchema_eq, violations_record_iff, List.forall_mem_cons, List.not_mem_nil,
    false_imp_iff, implies_true, and_true, violations_keySchema_iff, violations_nonempty_iff,
    Pattern.accepts_entryKey_iff, Str.one_le_length_iff]
  constructor
  · rintro ⟨members, rfl, ⟨⟨key, hk⟩, value, hv⟩, declared, keys, values⟩
    obtain ⟨s, rfl, loose⟩ := keys key hk
    obtain ⟨t, rfl, filled⟩ := values value hv
    cases h with
    | object nodup _ =>
      exact ⟨(s, t), ⟨members, rfl, perm_entry nodup declared hk hv⟩, loose, filled⟩
  · rintro ⟨⟨s, t⟩, ⟨members, rfl, perm⟩, loose, filled⟩
    have same := lookup_eq_of_perm (nodup_entry_keys _ _) perm
    have key : members.lookup (.text "key") = some (.text s) := same (.text "key")
    have value : members.lookup (.text "value") = some (.string t) := same (.text "value")
    refine ⟨members, rfl, ⟨⟨_, key⟩, _, value⟩, fun k hk => ?_, ?_, ?_⟩
    · exact (perm.map _).mem_iff.mp hk
    · intro x found
      cases key.symm.trans found
      exact ⟨s, rfl, loose⟩
    · intro x found
      cases value.symm.trans found
      exact ⟨t, rfl, filled⟩

/-! ## The contract -/

/-- A value is an array of different objects, each with just a key and a value, where the keys have
a property and the values are not empty. -/
def IsEntryList (P : String → Prop) (v : Value) : Prop :=
  ∃ vs entries, v = .array vs ∧ List.Forall₂ IsEntry vs entries ∧ entries.Nodup ∧
    ∀ e ∈ entries, P e.1 ∧ e.2 ≠ .text ""

theorem isArray_of_violations {v : Value} (h : groupParameters.violations v = []) :
    ∃ vs, v = .array vs := by
  cases v with
  | array vs => exact ⟨vs, rfl⟩
  | _ =>
    unfold Schema.violations groupParameters at h
    simp [keywordViolations, Keyword.violations, demand_eq_nil, ValueType.admits] at h

theorem exists_entries_iff {P : String × Str → Prop} {vs : List Value} :
    (∃ entries, List.Forall₂ IsEntry vs entries ∧ ∀ e ∈ entries, P e) ↔
      ∀ v ∈ vs, ∃ e, IsEntry v e ∧ P e := by
  induction vs with
  | nil => simp
  | cons v vs ih =>
    rw [List.forall_mem_cons, ← ih]
    constructor
    · rintro ⟨entries, are, sound⟩
      cases are with
      | cons is rest =>
        obtain ⟨first, later⟩ := List.forall_mem_cons.mp sound
        exact ⟨⟨_, is, first⟩, _, rest, later⟩
    · rintro ⟨⟨e, is, first⟩, entries, are, later⟩
      exact ⟨e :: entries, .cons is are, List.forall_mem_cons.mpr ⟨first, later⟩⟩

theorem exists_value_of_mem {vs : List Value} {entries : List (String × Str)}
    (are : List.Forall₂ IsEntry vs entries) {e : String × Str} (he : e ∈ entries) :
    ∃ v ∈ vs, IsEntry v e := by
  induction are with
  | nil => cases he
  | cons is _ ih =>
    rcases List.mem_cons.mp he with rfl | later
    · exact ⟨_, List.mem_cons_self, is⟩
    · obtain ⟨v, hv, is⟩ := ih later
      exact ⟨v, List.mem_cons_of_mem _ hv, is⟩

theorem mem_of_isEntry {vs : List Value} {entries : List (String × Str)}
    (are : List.Forall₂ IsEntry vs entries) {v : Value} (hv : v ∈ vs) {e : String × Str}
    (is : IsEntry v e) : e ∈ entries := by
  induction are with
  | nil => cases hv
  | cons first _ ih =>
    rcases List.mem_cons.mp hv with rfl | later
    · exact is.unique first ▸ List.mem_cons_self
    · exact List.mem_cons_of_mem _ (ih later)

/-- No key of an entry in a list holds a line feed. -/
def Feedless (v : Value) : Prop :=
  ∀ vs, v = .array vs → ∀ w ∈ vs, ∀ e, IsEntry w e → '\n' ∉ e.1.toList

theorem isEntryList_isKey_iff {v : Value} :
    IsEntryList IsKey v ↔ IsEntryList IsLooseKey v ∧ Feedless v := by
  constructor
  · rintro ⟨vs, entries, rfl, are, nodup, sound⟩
    refine ⟨⟨vs, entries, rfl, are, nodup, fun e he => ?_⟩, ?_⟩
    · exact ⟨.inl (sound e he).1, (sound e he).2⟩
    · intro _ same w hw e is
      cases same
      exact (isKey_iff.mp (sound e (mem_of_isEntry are hw is)).1).2
  · rintro ⟨⟨vs, entries, same, are, nodup, sound⟩, feedless⟩
    refine ⟨vs, entries, same, are, nodup, fun e he => ?_⟩
    obtain ⟨w, hw, is⟩ := exists_value_of_mem are he
    obtain ⟨loose, filled⟩ := sound e he
    exact ⟨isKey_iff.mpr ⟨loose, feedless vs same w hw e is⟩, filled⟩

theorem violations_eq_nil_iff {v : Value} (h : v.DistinctKeys) :
    groupParameters.violations v = [] ↔ IsEntryList IsLooseKey v := by
  constructor
  · intro valid
    obtain ⟨vs, rfl⟩ := isArray_of_violations valid
    obtain ⟨differ, each⟩ := validate_array_iff.mp (Schema.validate_eq_ok.mpr valid)
    cases h with
    | array distinct =>
      obtain ⟨entries, are, sound⟩ := exists_entries_iff.mpr fun w hw =>
        (violations_entrySchema_iff (distinct w hw)).mp (each w hw)
      exact ⟨vs, entries, rfl, are, (distinct_entries_iff are).mp differ, sound⟩
  · rintro ⟨vs, entries, rfl, are, nodup, sound⟩
    have each := exists_entries_iff.mp ⟨entries, are, sound⟩
    cases h with
    | array distinct =>
      exact Schema.validate_eq_ok.mp (validate_array_iff.mpr ⟨(distinct_entries_iff are).mpr nodup,
        fun w hw => (violations_entrySchema_iff (distinct w hw)).mpr (each w hw)⟩)

/-- **What follows the contract of group parameters: arrays of different entries, whose keys are
those of parameters, perhaps with a line feed behind them, and whose values are not empty.** The
keys are just those of parameters if and only if no key of such an array holds a line feed. -/
theorem violations_groupParameters_iff {v : Value} (h : v.DistinctKeys) :
    (groupParameters.violations v = [] ↔ IsEntryList IsLooseKey v) ∧
      ((groupParameters.violations v = [] ↔ IsEntryList IsKey v) ↔
        (IsEntryList IsLooseKey v → Feedless v)) := by
  have loose := violations_eq_nil_iff h
  refine ⟨loose, ?_⟩
  rw [loose, isEntryList_isKey_iff]
  exact iff_self_and

/-! ## A key with a line feed -/

theorem distinctKeys_entry (key value : Str) : (Value.entry key value).DistinctKeys :=
  .object (nodup_entry_keys _ _) fun m hm => by
    simp only [List.mem_cons, List.not_mem_nil, or_false] at hm
    rcases hm with rfl | rfl <;> exact .string _

/-- A list of one entry, the key of which has a line feed behind it. -/
def fedList : Value := .array [.entry "service.0.name\n" "O=Fjord"]

theorem distinctKeys_fedList : fedList.DistinctKeys :=
  .array fun _ hv => List.mem_singleton.mp hv ▸ distinctKeys_entry _ _

theorem violations_groupParameters_iff_fed :
    fedList.DistinctKeys ∧ groupParameters.violations fedList = [] ∧
      IsEntryList IsLooseKey fedList := by
  have valid : groupParameters.violations fedList = [] := by decide +kernel
  exact ⟨distinctKeys_fedList, valid,
    (violations_groupParameters_iff distinctKeys_fedList).1.mp valid⟩

/-- The list follows the contract, but its key is that of no parameter. -/
theorem not_exact_fed :
    ¬ (groupParameters.violations fedList = [] ↔ IsEntryList IsKey fedList) := by
  intro exact
  obtain ⟨vs, entries, same, are, -, sound⟩ := exact.mp (by decide +kernel)
  cases same
  cases are with
  | cons is rest =>
    obtain ⟨⟨exact, -⟩, -⟩ := List.forall_mem_cons.mp sound
    rw [is.unique (isEntry_entry _ _)] at exact
    exact absurd (isKey_iff.mp exact).2 (by decide)

end NotaryNetwork.Contract
