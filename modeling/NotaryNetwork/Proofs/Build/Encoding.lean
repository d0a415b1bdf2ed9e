import NotaryNetwork.Proofs.Build.Parameters
import NotaryNetwork.Proofs.Contract.GroupParameters
import NotaryNetwork.Proofs.Identity.Rendering

/-!
# Encodings and their contract

The keys of entries are all accepted by the contract of group parameters, and entries with distinct
keys are different, so the contract asks for nothing but values that are not empty
(`validate_entriesFrom`). An encoding fails at the first declaration whose service has no key or no
text or one of whose versions is not written (`entriesFrom_eq_error`), or for an empty value.
-/

namespace NotaryNetwork

open Contract (canonicalIndex entryKey)
open Json (Value)
open Text (digits)

/-! ## Keys -/

theorem inRange_of_isDigit {c : Char} (h : c.isDigit = true) :
    Contract.Pattern.inRange '0' '9' c = true := by
  unfold Char.isDigit at h
  unfold Contract.Pattern.inRange
  simpa [Char.le_def] using h

theorem matches_canonicalIndex (n : Nat) : canonicalIndex.Matches (digits n) := by
  rcases Text.canonical_digits n with zero | ⟨c, cs, e, first, rest⟩
  · exact .inl zero
  · refine .inr ⟨[c], cs, e, ⟨c, rfl, ?_⟩, fun d hd => inRange_of_isDigit (rest d hd)⟩
    simp [Contract.Pattern.inRange, first]

namespace ParameterKey

theorem matches_render (key : ParameterKey) : entryKey.Matches key.render.toList := by
  rw [toList_render]
  refine ⟨_, _, rfl, rfl, _, _, rfl, matches_canonicalIndex key.service, ['.'], key.tail, rfl, rfl,
    ?_⟩
  cases key with
  | name n => exact .inl rfl
  | publicKey n => exact .inr (.inl rfl)
  | protocol n => exact .inr (.inr (.inl rfl))
  | version n index => exact .inr (.inr (.inr ⟨_, _, rfl, rfl, matches_canonicalIndex index⟩))

/-- The contract accepts all keys. -/
theorem accepts_render (key : ParameterKey) : entryKey.accepts key.render = true :=
  Contract.Pattern.accepts_iff.mpr (.inl key.matches_render)

end ParameterKey

/-- The service of a declaration has a text, and its versions are written. -/
def NotaryDeclaration.Spelled (d : NotaryDeclaration) : Prop :=
  d.service.Renderable ∧ d.Writable

theorem NotaryDeclaration.Spelled.of_small {d : NotaryDeclaration} (text : d.service.Renderable)
    (small : ∀ v ∈ d.versions.val, v < Text.leastLonger 2) : d.Spelled :=
  ⟨text, fun v hv => Text.writable_of_lt 2 (by decide) (small v hv)⟩

namespace Parameters

/-! ## The contract -/

theorem toDocument_eq (entries : List GroupParameter) :
    toDocument entries = .array (entries.map fun e => .entry e.key.val e.value) := rfl

theorem distinct_entries {entries : List GroupParameter} (h : (entries.map (·.key.val)).Nodup) :
    Value.distinct (entries.map fun e => .entry e.key.val e.value) = true := by
  have objects : (entries.map fun e => Value.entry e.key.val e.value) =
      (entries.map fun e =>
        [(Json.Str.text "key", Value.text e.key.val),
          (Json.Str.text "value", Value.text e.value)]).map Value.object := by
    rw [List.map_map]
    rfl
  rw [objects, Value.distinct_objects, ← objects, Value.allDiffer_iff, List.pairwise_map]
  refine (List.pairwise_map.mp h).imp fun apart => ?_
  rw [Value.same_entry, Json.Str.text_beq, beq_false_of_ne apart]
  rfl

variable {encodeKey : PublicKey → String} {workers : Table Identity Identity}
  {keys : Table Identity KeyPair}

/-- **Entries of declarations follow the contract if no value is empty.** -/
theorem validate_entriesFrom {index : Nat} {ds : List NotaryDeclaration}
    {entries : List GroupParameter}
    (h : entriesFrom encodeKey workers keys index ds = .ok entries) :
    Contract.groupParameters.validate (toDocument entries) = .ok () ↔
      ∀ e ∈ entries, 1 ≤ e.value.length := by
  have accepted : ∀ e ∈ entries, entryKey.accepts e.key.val = true := by
    intro e he
    have member : e.key.val ∈ entries.map (·.key.val) := List.mem_map.mpr ⟨e, he, rfl⟩
    rw [keys_entriesFrom h] at member
    obtain ⟨key, -, text⟩ := List.mem_map.mp member
    rw [← text]
    exact key.accepts_render
  rw [toDocument_eq, Contract.validate_array_iff,
    and_iff_right (distinct_entries (nodup_keys_entriesFrom h)), List.forall_mem_map]
  constructor
  · intro valid e he
    exact (Contract.violations_entry_iff.mp (valid e he)).2
  · intro valid e he
    exact Contract.violations_entry_iff.mpr ⟨accepted e he, valid e he⟩

theorem length_pos_of_mem_versionEntries {service index : Nat} {versions : List Nat}
    {e : GroupParameter} (h : e ∈ versionEntries service index (versions.map toString)) :
    1 ≤ e.value.length := by
  induction versions generalizing index with
  | nil => cases h
  | cons v vs ih =>
    rcases List.mem_cons.mp h with rfl | later
    · exact Nat.length_repr_pos
    · exact ih later

/-- The values are filled if no key of a worker is encoded by nothing. -/
theorem filled_iff {index : Nat} {ds : List NotaryDeclaration} {entries : List GroupParameter}
    (h : entriesFrom encodeKey workers keys index ds = .ok entries) :
    (∀ e ∈ entries, 1 ≤ e.value.length) ↔ ∀ d ∈ ds, ∀ pair,
      workerPair workers keys d.service = .ok pair → 1 ≤ (encodeKey pair.publicKey).length := by
  induction ds generalizing index entries with
  | nil =>
    cases h
    simp
  | cons d ds ih =>
    obtain ⟨pair, text, rest, found, rendered, -, later, rfl⟩ := entriesFrom_cons.mp h
    have protocol : 1 ≤ protocolName.length := by decide
    have service : (∀ e ∈ serviceEntries index text (encodeKey pair.publicKey) d.versionTexts,
        1 ≤ e.value.length) ↔ 1 ≤ (encodeKey pair.publicKey).length := by
      simp only [serviceEntries, List.forall_mem_cons, ParameterKey.entry]
      constructor
      · rintro ⟨-, filled, -⟩
        exact filled
      · intro filled
        exact ⟨Identity.length_pos_of_render rendered, filled, protocol,
          fun e he => length_pos_of_mem_versionEntries he⟩
    rw [List.forall_mem_append, service, ih later, List.forall_mem_cons]
    refine and_congr_left fun _ => ?_
    constructor
    · intro filled pair' found'
      rw [found] at found'
      cases found'
      exact filled
    · intro filled
      exact filled pair found

theorem encode_eq_ok_iff {ds : List NotaryDeclaration} {entries : List GroupParameter} :
    (encode encodeKey ds workers keys).outcome = .ok entries ↔
      entriesFrom encodeKey workers keys 0 ds = .ok entries ∧
        ∀ e ∈ entries, 1 ≤ e.value.length := by
  rw [encode_eq_ok]
  exact and_congr_right fun made => validate_entriesFrom made

/-! ## Failures -/

/-- What fails for a declaration: the worker of its service has no key, or the service has no text,
or one of the versions is not written. -/
inductive EntryFault (workers : Table Identity Identity) (keys : Table Identity KeyPair)
    (d : NotaryDeclaration) : Failure → Prop
  | keyless {f : Failure} (missing : workerPair workers keys d.service = .error f) :
      EntryFault workers keys d f
  | unrenderable {pair : KeyPair} {fault : Name.SizeFault}
      (keyed : workerPair workers keys d.service = .ok pair)
      (unrendered : d.service.render = .error fault) :
      EntryFault workers keys d (.unrenderable fault)
  | unwritten {pair : KeyPair} (keyed : workerPair workers keys d.service = .ok pair)
      (text : d.service.Renderable) (long : ¬ d.Writable) : EntryFault workers keys d .tooManyDigits

/-- A declaration that is spelled, and whose service has a key. -/
def Encodable (workers : Table Identity Identity) (keys : Table Identity KeyPair)
    (d : NotaryDeclaration) : Prop :=
  (∃ pair, workerPair workers keys d.service = .ok pair) ∧ d.Spelled

theorem EntryFault.not_encodable {d : NotaryDeclaration} {f : Failure}
    (h : EntryFault workers keys d f) : ¬ Encodable workers keys d := by
  rintro ⟨⟨pair, found⟩, ⟨text, rendered⟩, writable⟩
  cases h with
  | keyless missing => cases missing.symm.trans found
  | unrenderable _ unrendered => cases unrendered.symm.trans rendered
  | unwritten _ _ long => exact long writable

theorem exists_entryFault {d : NotaryDeclaration} :
    (∃ f, EntryFault workers keys d f) ↔ ¬ Encodable workers keys d := by
  constructor
  · rintro ⟨f, fault⟩
    exact fault.not_encodable
  · intro bad
    cases found : workerPair workers keys d.service with
    | error f => exact ⟨f, .keyless found⟩
    | ok pair =>
      cases rendered : d.service.render with
      | error fault => exact ⟨_, .unrenderable found rendered⟩
      | ok text =>
        refine ⟨_, .unwritten found ⟨text, rendered⟩ fun writable => bad ?_⟩
        exact ⟨⟨pair, found⟩, ⟨text, rendered⟩, writable⟩

theorem entriesFrom_cons_eq_error {index : Nat} {d : NotaryDeclaration}
    {ds : List NotaryDeclaration} {f : Failure} :
    entriesFrom encodeKey workers keys index (d :: ds) = .error f ↔
      EntryFault workers keys d f ∨ Encodable workers keys d ∧
        entriesFrom encodeKey workers keys (index + 1) ds = .error f := by
  rw [entriesFrom, bind_eq_error]
  simp only [bind_eq_error, mapError_eq_error, mapError_eq_ok, mapM_versionText_eq_ok,
    mapM_versionText_eq_error]
  constructor
  · rintro (missing | ⟨pair, found, ⟨fault, unrendered, rfl⟩ | ⟨text, rendered, ⟨long, rfl⟩ |
      ⟨_, ⟨writable, -⟩, later | ⟨_, -, made⟩⟩⟩⟩)
    · exact .inl (.keyless missing)
    · exact .inl (.unrenderable found unrendered)
    · exact .inl (.unwritten found ⟨text, rendered⟩ long)
    · exact .inr ⟨⟨⟨pair, found⟩, ⟨text, rendered⟩, writable⟩, later⟩
    · cases made
  · rintro (fault | ⟨⟨⟨pair, found⟩, ⟨text, rendered⟩, writable⟩, later⟩)
    · cases fault with
      | keyless missing => exact .inl missing
      | unrenderable found unrendered => exact .inr ⟨_, found, .inl ⟨_, unrendered, rfl⟩⟩
      | unwritten found rendered long =>
        obtain ⟨text, rendered⟩ := rendered
        exact .inr ⟨_, found, .inr ⟨_, rendered, .inl ⟨long, rfl⟩⟩⟩
    · exact .inr ⟨_, found, .inr ⟨_, rendered, .inr ⟨_, ⟨writable, rfl⟩, .inl later⟩⟩⟩

/-- **The entries fail at the first declaration whose service has no key or no text or one of whose
versions is not written.** -/
theorem entriesFrom_eq_error {index : Nat} {ds : List NotaryDeclaration} {f : Failure} :
    entriesFrom encodeKey workers keys index ds = .error f ↔
      ∃ d, IsFirst (fun d => ¬ Encodable workers keys d) ds d ∧ EntryFault workers keys d f := by
  induction ds generalizing index with
  | nil => simp [entriesFrom, IsFirst.not_nil]
  | cons d ds ih =>
    simp only [entriesFrom_cons_eq_error, IsFirst.cons_iff, ih, not_not]
    constructor
    · rintro (fault | ⟨sound, d', first, fault⟩)
      · exact ⟨d, .inl ⟨fault.not_encodable, rfl⟩, fault⟩
      · exact ⟨d', .inr ⟨sound, first⟩, fault⟩
    · rintro ⟨d', ⟨-, rfl⟩ | ⟨sound, first⟩, fault⟩
      · exact .inl fault
      · exact .inr ⟨sound, d', first, fault⟩

theorem exists_entriesFrom_iff {index : Nat} {ds : List NotaryDeclaration} :
    (∃ entries, entriesFrom encodeKey workers keys index ds = .ok entries) ↔
      ∀ d ∈ ds, Encodable workers keys d := by
  have succeeds : (∃ entries, entriesFrom encodeKey workers keys index ds = .ok entries) ↔
      ¬ ∃ f, entriesFrom encodeKey workers keys index ds = .error f := by
    cases entriesFrom encodeKey workers keys index ds <;> simp
  have fails : (∃ f, entriesFrom encodeKey workers keys index ds = .error f) ↔
      ∃ d ∈ ds, ¬ Encodable workers keys d := by
    rw [← IsFirst.exists_iff]
    constructor
    · rintro ⟨f, h⟩
      obtain ⟨d, first, -⟩ := entriesFrom_eq_error.mp h
      exact ⟨d, first⟩
    · rintro ⟨d, first⟩
      obtain ⟨f, fault⟩ := exists_entryFault.mpr first.holds
      exact ⟨f, entriesFrom_eq_error.mpr ⟨d, first, fault⟩⟩
  rw [succeeds, fails]
  simp only [not_exists, not_and, not_not]

/-- **An encoding fails at a service, or by its contract.** -/
theorem encode_eq_error {ds : List NotaryDeclaration} {f : Failure} :
    (encode encodeKey ds workers keys).outcome = .error f ↔
      entriesFrom encodeKey workers keys 0 ds = .error f ∨
        ∃ entries violation, entriesFrom encodeKey workers keys 0 ds = .ok entries ∧
          Contract.groupParameters.validate (toDocument entries) = .error violation ∧
          f = .contract violation := by
  rw [outcome_encode, bind_eq_error]
  refine or_congr_right ⟨?_, ?_⟩
  · intro h
    obtain ⟨entries, made, h⟩ := h
    rcases bind_eq_error.mp h with refused | ⟨-, -, h⟩
    · obtain ⟨violation, broken, rfl⟩ := mapError_eq_error.mp refused
      exact ⟨entries, violation, made, broken, rfl⟩
    · cases h
  · intro h
    obtain ⟨entries, violation, made, broken, rfl⟩ := h
    exact ⟨entries, made, bind_eq_error.mpr (.inl (mapError_eq_error.mpr ⟨violation, broken, rfl⟩))⟩

/-- What is missing for a service: it has no worker, or its worker has no key. -/
inductive Missing (workers : Table Identity Identity) (keys : Table Identity KeyPair)
    (s : Identity) : Identity → Prop
  | worker (unmapped : workers.get? s = none) : Missing workers keys s s
  | key {worker : Identity} (mapped : workers.get? s = some worker)
      (keyless : keys.get? worker = none) : Missing workers keys s worker

theorem workerPair_eq_error {s : Identity} {f : Failure} :
    workerPair workers keys s = .error f ↔ ∃ i, Missing workers keys s i ∧ f = .missingKey i := by
  unfold workerPair
  constructor
  · intro h
    split at h
    · rename_i unmapped
      cases h
      exact ⟨s, .worker unmapped, rfl⟩
    · rename_i worker mapped
      split at h
      · rename_i keyless
        cases h
        exact ⟨worker, .key mapped keyless, rfl⟩
      · cases h
  · intro h
    obtain ⟨i, missing, rfl⟩ := h
    cases missing with
    | worker unmapped => rw [unmapped]
    | key mapped keyless => simp only [mapped, keyless]

/-- No failure of an encoding is an error of the family. -/
theorem encode_ne_build {ds : List NotaryDeclaration} {f : Failure}
    (h : (encode encodeKey ds workers keys).outcome = .error f) (e : BuildError) :
    f ≠ .build e := by
  rcases encode_eq_error.mp h with fails | ⟨_, violation, -, -, rfl⟩
  · obtain ⟨d, -, fault⟩ := entriesFrom_eq_error.mp fails
    cases fault with
    | keyless missing =>
      obtain ⟨i, -, rfl⟩ := workerPair_eq_error.mp missing
      exact nofun
    | unrenderable => exact nofun
    | unwritten => exact nofun
  · exact nofun

end Parameters

end NotaryNetwork
