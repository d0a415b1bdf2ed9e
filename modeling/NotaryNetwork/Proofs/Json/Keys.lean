import NotaryNetwork.Json.Reader
import NotaryNetwork.Proofs.Outcome

/-!
# The keys of objects

No object in a document that has been read has a key twice, at any depth (`distinctKeys_of_read`):
a key that comes again takes the place of the first one.
-/

namespace NotaryNetwork.Json

/-- No object in a value has a key twice. -/
inductive Value.DistinctKeys : Value → Prop
  | null : DistinctKeys .null
  | bool (b : Bool) : DistinctKeys (.bool b)
  | int (n : Int) : DistinctKeys (.int n)
  | real (x : Binary64) : DistinctKeys (.real x)
  | string (s : Str) : DistinctKeys (.string s)
  | array {vs : List Value} : (∀ v ∈ vs, v.DistinctKeys) → DistinctKeys (.array vs)
  | object {members : List (Str × Value)} : (members.map (·.1)).Nodup →
      (∀ m ∈ members, m.2.DistinctKeys) → DistinctKeys (.object members)

open Value (DistinctKeys)

/-- Members with distinct keys, whose values have distinct keys too. -/
def AreMembers (members : List (Str × Value)) : Prop :=
  (members.map (·.1)).Nodup ∧ ∀ m ∈ members, m.2.DistinctKeys

theorem AreMembers.nil : AreMembers [] := ⟨List.nodup_nil, fun _ h => nomatch h⟩

theorem AreMembers.put {members : List (Str × Value)} (h : AreMembers members) (key : Str)
    {value : Value} (distinct : value.DistinctKeys) : AreMembers (put key value members) := by
  refine ⟨nodup_keys_put h.1 key value, ?_⟩
  obtain ⟨-, each⟩ := h
  induction members with
  | nil => simpa [NotaryNetwork.put] using distinct
  | cons m members ih =>
    obtain ⟨first, later⟩ := List.forall_mem_cons.mp each
    rw [NotaryNetwork.put]
    split
    · exact List.forall_mem_cons.mpr ⟨distinct, later⟩
    · exact List.forall_mem_cons.mpr ⟨first, ih later⟩

/-! ## Reading -/

theorem distinctKeys_of_readWord? {cs rest : List Char} {v : Value}
    (h : readWord? cs = some (v, rest)) : v.DistinctKeys := by
  unfold readWord? at h
  simp only [Option.orElse_eq_orElse, Option.orElse_eq_or, Option.or_eq_some_iff,
    Option.map_eq_some_iff, Prod.mk.injEq] at h
  rcases h with ⟨_, -, rfl, -⟩ | ⟨-, ⟨_, -, rfl, -⟩ | ⟨-, ⟨_, -, rfl, -⟩ | ⟨-, ⟨_, -, rfl, -⟩ |
    ⟨-, ⟨_, -, rfl, -⟩ | ⟨-, _, -, rfl, -⟩⟩⟩⟩⟩
  · exact .null
  · exact .bool _
  · exact .bool _
  · exact .real _
  · exact .real _
  · exact .real _

theorem distinctKeys_of_readNumber {start cs rest : List Char} {negative : Bool} {v : Value}
    (h : readNumber start negative cs = .ok (v, rest)) : v.DistinctKeys := by
  unfold readNumber at h
  split at h
  · cases h
  · dsimp only at h
    split at h
    · split at h
      · cases h
      · cases h
        exact .int _
    · cases h
      exact .real _

/-- What is read with some fuel has distinct keys, whatever is read. -/
theorem distinctKeys_of_fuel (fuel : Nat) :
    (∀ {room cs v rest}, readValue fuel room cs = .ok (v, rest) → v.DistinctKeys) ∧
      (∀ {room cs vs rest}, readItems fuel room cs = .ok (vs, rest) →
        ∀ v ∈ vs, v.DistinctKeys) ∧
      ∀ {room members cs more rest}, AreMembers members →
        readMembers fuel room members cs = .ok (more, rest) → AreMembers more := by
  induction fuel with
  | zero =>
    refine ⟨fun h => ?_, fun h => ?_, fun _ h => ?_⟩ <;> cases h
  | succ fuel ih =>
    obtain ⟨values, items, members⟩ := ih
    refine ⟨?_, ?_, ?_⟩
    · intro room cs v rest h
      unfold readValue at h
      split at h
      · obtain ⟨⟨s, after⟩, -, h⟩ := bind_eq_ok.mp h
        cases h
        exact .string s
      · split at h
        · cases h
        · cases h
          exact .array fun v hv => nomatch hv
        · obtain ⟨⟨vs, after⟩, read, h⟩ := bind_eq_ok.mp h
          cases h
          exact .array (items read)
      · split at h
        · cases h
        · cases h
          exact .object AreMembers.nil.1 AreMembers.nil.2
        · obtain ⟨⟨ms, after⟩, read, h⟩ := bind_eq_ok.mp h
          cases h
          obtain ⟨nodup, each⟩ := members .nil read
          exact .object nodup each
      · split at h
        · rename_i found
          cases h
          exact distinctKeys_of_readWord? found
        · split at h
          · exact distinctKeys_of_readNumber h
          · exact distinctKeys_of_readNumber h
    · intro room cs vs rest h
      unfold readItems at h
      obtain ⟨⟨item, after⟩, read, h⟩ := bind_eq_ok.mp h
      have first := values read
      dsimp only at h
      split at h
      · cases h
        exact List.forall_mem_singleton.mpr first
      · obtain ⟨⟨more, after⟩, later, h⟩ := bind_eq_ok.mp h
        cases h
        exact List.forall_mem_cons.mpr ⟨first, items later⟩
      · cases h
    · intro room ms cs more rest sound h
      unfold readMembers at h
      split at h
      · obtain ⟨⟨key, after⟩, -, h⟩ := bind_eq_ok.mp h
        dsimp only at h
        split at h
        · obtain ⟨⟨value, after⟩, read, h⟩ := bind_eq_ok.mp h
          have put := sound.put key (values read)
          dsimp only at h
          split at h
          · cases h
            exact put
          · exact members put h
          · cases h
        · cases h
      · cases h

/-- **No object of a document that has been read has a key twice.** -/
theorem distinctKeys_of_read {text : String} {v : Value} (h : read text = .ok v) :
    v.DistinctKeys := by
  have all := mapError_eq_ok.mp h
  unfold readAll at all
  split at all
  · cases all
  · obtain ⟨⟨value, rest⟩, found, all⟩ := bind_eq_ok.mp all
    dsimp only at all
    split at all
    · cases all
      exact (distinctKeys_of_fuel _).1 found
    · cases all

end NotaryNetwork.Json
