import NotaryNetwork.Proofs.Contract.Entries

/-!
# What encodings come to

An encoding of services that have texts comes to one of three things, whatever the workers, their
keys and the texts of keys are and however often a service is declared (`encode_decides`). It fails
with what is missing for the first service that lacks a worker or a key; else with its contract, if
the text of a key that it needs is empty; else its entries are those of the declarations, no key
comes twice, and the contract holds. The numbers in the keys of entries never break it: no number
is too large for the pattern of the contract. What can be in the way is a version with too many
digits (`Overlong`): the encoding fails for it before it comes to what is missing behind it.
-/

namespace NotaryNetwork.Parameters

open Contract (IsKey IsEntry IsEntryList)
open Json (Value)

variable {encodeKey : PublicKey → String} {workers : Table Identity Identity}
  {keys : Table Identity KeyPair} {ds : List NotaryDeclaration} {s : Identity}

/-! ## Keys of services -/

/-- The worker of a service has a key pair. -/
def Keyed (workers : Table Identity Identity) (keys : Table Identity KeyPair) (s : Identity)
    (pair : KeyPair) : Prop :=
  ∃ worker, workers.get? s = some worker ∧ keys.get? worker = some pair

theorem keyed_iff {pair : KeyPair} :
    Keyed workers keys s pair ↔ workerPair workers keys s = .ok pair :=
  workerPair_eq_ok.symm

/-- Something is missing for a service, or its worker has a key pair. -/
theorem exists_keyed_iff :
    (∃ pair, Keyed workers keys s pair) ↔ ¬ ∃ i, Missing workers keys s i := by
  simp only [keyed_iff]
  cases found : workerPair workers keys s with
  | ok pair =>
    refine iff_of_true ⟨pair, rfl⟩ ?_
    intro lacks
    obtain ⟨i, missing⟩ := lacks
    have fails := workerPair_eq_error.mpr ⟨i, missing, rfl⟩
    rw [found] at fails
    cases fails
  | error f =>
    obtain ⟨i, missing, -⟩ := workerPair_eq_error.mp found
    exact iff_of_false nofun fun complete => complete ⟨i, missing⟩

/-- A service lacks a worker, or its worker lacks a key. -/
abbrev Lacking (workers : Table Identity Identity) (keys : Table Identity KeyPair)
    (s : Identity) : Prop :=
  ∃ i, Missing workers keys s i

theorem encodable_iff {d : NotaryDeclaration} (text : d.service.Renderable) :
    Encodable workers keys d ↔ ¬ Lacking workers keys d.service ∧ d.Writable := by
  rw [← exists_keyed_iff]
  simp only [keyed_iff, Encodable, NotaryDeclaration.Spelled, and_iff_right text]

theorem entryFault_missingKey_iff {d : NotaryDeclaration} {i : Identity} :
    EntryFault workers keys d (.missingKey i) ↔ Missing workers keys d.service i := by
  constructor
  · intro fault
    cases fault with
    | keyless missing =>
      obtain ⟨j, missing, same⟩ := workerPair_eq_error.mp missing
      cases same
      exact missing
  · exact fun missing => .keyless (workerPair_eq_error.mpr ⟨i, missing, rfl⟩)

theorem entryFault_tooManyDigits_iff {d : NotaryDeclaration} (text : d.service.Renderable) :
    EntryFault workers keys d .tooManyDigits ↔
      ¬ Lacking workers keys d.service ∧ ¬ d.Writable := by
  rw [← exists_keyed_iff]
  simp only [keyed_iff]
  constructor
  · intro fault
    cases fault with
    | keyless missing =>
      obtain ⟨_, -, same⟩ := workerPair_eq_error.mp missing
      cases same
    | unwritten keyed _ long => exact ⟨⟨_, keyed⟩, long⟩
  · rintro ⟨⟨pair, keyed⟩, long⟩
    exact .unwritten keyed text long

/-! ## The outcomes -/

/-- The first declaration that is not encoded has all that it needs, but a version that is not
written. -/
def Overlong (workers : Table Identity Identity) (keys : Table Identity KeyPair)
    (ds : List NotaryDeclaration) : Prop :=
  ∃ d, IsFirst (fun d => Lacking workers keys d.service ∨ ¬ d.Writable) ds d ∧
    ¬ Lacking workers keys d.service

theorem isFirst_encodable_iff (texts : ∀ d ∈ ds, d.service.Renderable) {d : NotaryDeclaration} :
    IsFirst (fun d => ¬ Encodable workers keys d) ds d ↔
      IsFirst (fun d => Lacking workers keys d.service ∨ ¬ d.Writable) ds d :=
  IsFirst.congr fun d hd => by rw [encodable_iff (texts d hd), not_and_or, not_not]

/-- An encoding fails for a version just if that is the first failure. -/
theorem encode_eq_tooManyDigits (texts : ∀ d ∈ ds, d.service.Renderable) :
    (encode encodeKey ds workers keys).outcome = .error .tooManyDigits ↔
      Overlong workers keys ds := by
  rw [encode_eq_error, entriesFrom_eq_error]
  simp only [isFirst_encodable_iff texts]
  constructor
  · rintro (⟨d, first, fault⟩ | ⟨_, _, -, -, contract⟩)
    · exact ⟨d, first, ((entryFault_tooManyDigits_iff (texts d first.mem)).mp fault).1⟩
    · cases contract
  · rintro ⟨d, first, keyed⟩
    have long := first.holds.resolve_left keyed
    exact .inl ⟨d, first, (entryFault_tooManyDigits_iff (texts d first.mem)).mpr ⟨keyed, long⟩⟩

section NotOverlong

variable (texts : ∀ d ∈ ds, d.service.Renderable) (short : ¬ Overlong workers keys ds)

include texts short

/-- The first declaration that is not encoded is the first one that lacks something. -/
theorem isFirst_lacking_iff {d : NotaryDeclaration} :
    IsFirst (fun d => ¬ Encodable workers keys d) ds d ↔
      IsFirst (fun d => Lacking workers keys d.service) ds d := by
  rw [isFirst_encodable_iff texts]
  refine IsFirst.congr_of_first (fun _ _ lacking => .inl lacking) fun d first => ?_
  exact Classical.not_not.mp fun keyed => short ⟨d, first, keyed⟩

/-- There are entries just if nothing is missing. -/
theorem exists_entriesFrom_iff_missing (encodeKey : PublicKey → String) :
    (∃ entries, entriesFrom encodeKey workers keys 0 ds = .ok entries) ↔
      ¬ ∃ d ∈ ds, Lacking workers keys d.service := by
  rw [exists_entriesFrom_iff, ← IsFirst.exists_iff]
  simp only [← isFirst_lacking_iff texts short, IsFirst.exists_iff, not_exists, not_and, not_not]

end NotOverlong

/-- **Entries of declarations break their contract just if a key that they need has no text.** -/
theorem validate_eq_error_iff {index : Nat} {entries : List GroupParameter}
    (made : entriesFrom encodeKey workers keys index ds = .ok entries) :
    (∃ violation, Contract.groupParameters.validate (toDocument entries) = .error violation) ↔
      ∃ d ∈ ds, ∃ pair, Keyed workers keys d.service pair ∧ encodeKey pair.publicKey = "" := by
  have refused : (∃ violation, Contract.groupParameters.validate (toDocument entries) =
      .error violation) ↔ ¬ Contract.groupParameters.validate (toDocument entries) = .ok () := by
    cases Contract.groupParameters.validate (toDocument entries) <;> simp
  have filled : Contract.groupParameters.validate (toDocument entries) = .ok () ↔
      ∀ d ∈ ds, ∀ pair, Keyed workers keys d.service pair → encodeKey pair.publicKey ≠ "" := by
    rw [validate_entriesFrom made, filled_iff made]
    refine forall₃_congr fun d hd pair => ?_
    rw [keyed_iff, Nat.one_le_iff_ne_zero, Ne, String.length_eq_zero_iff]
  rw [refused, filled]
  simp

/-- Filled entries of declarations are a list of different entries with keys of parameters. -/
theorem isEntryList_toDocument {index : Nat} {entries : List GroupParameter}
    (made : entriesFrom encodeKey workers keys index ds = .ok entries)
    (filled : ∀ e ∈ entries, 1 ≤ e.value.length) :
    IsEntryList IsKey (toDocument entries) := by
  refine ⟨_, entries.map fun e => (e.key.val, .text e.value), toDocument_eq entries, ?_, ?_, ?_⟩
  · rw [List.forall₂_map_left_iff, List.forall₂_map_right_iff]
    exact List.forall₂_same.mpr fun e _ => Contract.isEntry_entry e.key.val e.value
  · have nodup := nodup_keys_entriesFrom made
    rw [List.Nodup, List.pairwise_map] at nodup ⊢
    exact nodup.imp fun apart same => apart (congrArg Prod.fst same)
  · intro pair member
    obtain ⟨e, he, rfl⟩ := List.mem_map.mp member
    obtain ⟨key, -, text⟩ := exists_key made he
    refine ⟨⟨key, text⟩, fun empty => ?_⟩
    have long := filled e he
    rw [Json.Str.text.inj empty] at long
    exact absurd long (by decide)

/-- What an encoding comes to if no version is in its way: something is missing, else a key has no
text, else there are entries, which follow the contract. -/
structure Decides (encodeKey : PublicKey → String) (workers : Table Identity Identity)
    (keys : Table Identity KeyPair) (ds : List NotaryDeclaration) : Prop where
  missing (i : Identity) : (encode encodeKey ds workers keys).outcome = .error (.missingKey i) ↔
    ∃ d, IsFirst (fun d => Lacking workers keys d.service) ds d ∧ Missing workers keys d.service i
  broken : (∃ violation, (encode encodeKey ds workers keys).outcome =
      .error (.contract violation)) ↔
    (¬ ∃ d ∈ ds, Lacking workers keys d.service) ∧
      ∃ d ∈ ds, ∃ pair, Keyed workers keys d.service pair ∧ encodeKey pair.publicKey = ""
  filled : (∃ entries, (encode encodeKey ds workers keys).outcome = .ok entries) ↔
    (¬ ∃ d ∈ ds, Lacking workers keys d.service) ∧
      ¬ ∃ d ∈ ds, ∃ pair, Keyed workers keys d.service pair ∧ encodeKey pair.publicKey = ""
  sound (entries : List GroupParameter) :
    (encode encodeKey ds workers keys).outcome = .ok entries →
      entries.map (·.key.val) = (keysFrom 0 ds).map ParameterKey.render ∧
      (entries.map (·.key.val)).Nodup ∧
      Contract.groupParameters.validate (toDocument entries) = .ok () ∧
      IsEntryList IsKey (toDocument entries)

section NotOverlong

variable (texts : ∀ d ∈ ds, d.service.Renderable) (short : ¬ Overlong workers keys ds)

include texts short

theorem encode_eq_missing {i : Identity} :
    (encode encodeKey ds workers keys).outcome = .error (.missingKey i) ↔
      ∃ d, IsFirst (fun d => Lacking workers keys d.service) ds d ∧
        Missing workers keys d.service i := by
  rw [encode_eq_error, entriesFrom_eq_error]
  simp only [isFirst_lacking_iff texts short, entryFault_missingKey_iff]
  constructor
  · rintro (fails | ⟨_, _, -, -, contract⟩)
    · exact fails
    · cases contract
  · exact .inl

theorem encode_eq_broken :
    (∃ violation, (encode encodeKey ds workers keys).outcome = .error (.contract violation)) ↔
      (¬ ∃ d ∈ ds, Lacking workers keys d.service) ∧
        ∃ d ∈ ds, ∃ pair, Keyed workers keys d.service pair ∧ encodeKey pair.publicKey = "" := by
  rw [← exists_entriesFrom_iff_missing texts short encodeKey]
  constructor
  · intro h
    obtain ⟨violation, fails⟩ := h
    rcases encode_eq_error.mp fails with unmade | ⟨entries, violation, made, broken, -⟩
    · obtain ⟨d, -, fault⟩ := entriesFrom_eq_error.mp unmade
      cases fault with
      | keyless missing =>
        obtain ⟨_, -, same⟩ := workerPair_eq_error.mp missing
        cases same
    · exact ⟨⟨entries, made⟩, (validate_eq_error_iff made).mp ⟨violation, broken⟩⟩
  · intro h
    obtain ⟨⟨entries, made⟩, empty⟩ := h
    obtain ⟨violation, broken⟩ := (validate_eq_error_iff made).mpr empty
    exact ⟨violation, encode_eq_error.mpr (.inr ⟨entries, violation, made, broken, rfl⟩)⟩

theorem exists_encode :
    (∃ entries, (encode encodeKey ds workers keys).outcome = .ok entries) ↔
      (¬ ∃ d ∈ ds, Lacking workers keys d.service) ∧
        ¬ ∃ d ∈ ds, ∃ pair, Keyed workers keys d.service pair ∧ encodeKey pair.publicKey = "" := by
  rw [← exists_entriesFrom_iff_missing texts short encodeKey]
  constructor
  · intro h
    obtain ⟨entries, ok⟩ := h
    obtain ⟨made, valid⟩ := encode_eq_ok.mp ok
    refine ⟨⟨entries, made⟩, fun empty => ?_⟩
    obtain ⟨violation, broken⟩ := (validate_eq_error_iff made).mpr empty
    rw [valid] at broken
    cases broken
  · intro h
    obtain ⟨⟨entries, made⟩, filled⟩ := h
    cases valid : Contract.groupParameters.validate (toDocument entries) with
    | ok u => exact ⟨entries, encode_eq_ok.mpr ⟨made, valid⟩⟩
    | error violation => exact absurd ((validate_eq_error_iff made).mp ⟨violation, valid⟩) filled

theorem decides_of_not_overlong : Decides encodeKey workers keys ds where
  missing _ := encode_eq_missing texts short
  broken := encode_eq_broken texts short
  filled := exists_encode texts short
  sound entries ok := by
    obtain ⟨made, valid⟩ := encode_eq_ok.mp ok
    exact ⟨keys_entriesFrom made, nodup_keys_entriesFrom made, valid,
      isEntryList_toDocument made ((validate_entriesFrom made).mp valid)⟩

end NotOverlong

/-- An encoding that decides fails by nothing else than what is missing or the contract. -/
theorem Decides.ne_tooManyDigits (h : Decides encodeKey workers keys ds) :
    (encode encodeKey ds workers keys).outcome ≠ .error .tooManyDigits := by
  intro fails
  have lacking : ∃ d ∈ ds, Lacking workers keys d.service := by
    refine Classical.not_not.mp fun complete => ?_
    by_cases empty :
        ∃ d ∈ ds, ∃ pair, Keyed workers keys d.service pair ∧ encodeKey pair.publicKey = ""
    · obtain ⟨violation, broken⟩ := h.broken.mpr ⟨complete, empty⟩
      cases fails.symm.trans broken
    · obtain ⟨entries, ok⟩ := h.filled.mpr ⟨complete, empty⟩
      cases fails.symm.trans ok
  obtain ⟨d, first⟩ := IsFirst.exists_iff.mpr lacking
  obtain ⟨i, missing⟩ := first.holds
  cases fails.symm.trans ((h.missing i).mpr ⟨d, first, missing⟩)

/-- **What encodings come to, for services that have texts: something is missing, else a key has no
text, else there are entries, which follow the contract. It is so unless the first declaration that
is not encoded lacks nothing and has a version that is not written; then the encoding fails for that
version.** -/
theorem encode_decides (encodeKey : PublicKey → String) (workers : Table Identity Identity)
    (keys : Table Identity KeyPair) (texts : ∀ d ∈ ds, d.service.Renderable) :
    (Decides encodeKey workers keys ds ↔ ¬ Overlong workers keys ds) ∧
      (Overlong workers keys ds ↔
        (encode encodeKey ds workers keys).outcome = .error .tooManyDigits) := by
  have fails : (encode encodeKey ds workers keys).outcome = .error .tooManyDigits ↔
      Overlong workers keys ds := encode_eq_tooManyDigits texts
  refine ⟨⟨fun decides overlong => ?_, decides_of_not_overlong texts⟩, fails.symm⟩
  exact decides.ne_tooManyDigits (fails.mpr overlong)

/-! ## A mill that is declared twice -/

/-- A mill. -/
def mill : Identity :=
  ⟨none, none, ⟨"Mylla", by decide⟩, ⟨"Akureyri", by decide⟩, none, ⟨"IS", by decide⟩⟩

/-- The worker of the mill. -/
def miller : Identity :=
  ⟨none, none, ⟨"Malari", by decide⟩, ⟨"Akureyri", by decide⟩, none, ⟨"IS", by decide⟩⟩

/-- The mill, twice. -/
def mills : List NotaryDeclaration :=
  [⟨mill, ⟨[17], by decide⟩⟩, ⟨mill, ⟨[17, 18], by decide⟩⟩]

def millWorkers : Table Identity Identity := .ofList [(mill, miller)]

def millKeys : Table Identity KeyPair := .ofList [(miller, ⟨"RSA", .rsa 35 5⟩)]

theorem renderable_mill : mill.Renderable := ⟨_, rfl⟩

theorem service_of_mem_mills {d : NotaryDeclaration} (h : d ∈ mills) : d.service = mill := by
  rcases List.mem_pair.mp h with rfl | rfl <;> rfl

theorem not_overlong_mills (keys : Table Identity KeyPair) : ¬ Overlong millWorkers keys mills := by
  have small : ∀ d ∈ mills, ∀ v ∈ d.versions.val, v < Text.leastLonger 2 := by decide
  rintro ⟨d, first, keyed⟩
  refine first.holds.resolve_left keyed fun v hv => ?_
  exact Text.writable_of_lt 2 (by decide) (small d first.mem v hv)

/-- The mill has a miller, whose key is missing, is encoded by nothing, or by its kind. -/
theorem encode_decides_mills :
    (∀ d ∈ mills, d.service.Renderable) ∧
      (encode PublicKey.kind mills millWorkers .empty).outcome = .error (.missingKey miller) ∧
      (∃ violation, (encode (fun _ => "") mills millWorkers millKeys).outcome =
        .error (.contract violation)) ∧
      ∃ entries, (encode PublicKey.kind mills millWorkers millKeys).outcome = .ok entries ∧
        (entries.map (·.key.val)).Nodup ∧ IsEntryList IsKey (toDocument entries) := by
  have texts : ∀ d ∈ mills, d.service.Renderable := by
    intro d hd
    rw [service_of_mem_mills hd]
    exact renderable_mill
  have missing : Missing millWorkers .empty mill miller := .key rfl rfl
  have keyed : ∀ d ∈ mills, Keyed millWorkers millKeys d.service ⟨"RSA", .rsa 35 5⟩ := by
    intro d hd
    rw [service_of_mem_mills hd]
    exact ⟨miller, rfl, rfl⟩
  have complete : ¬ ∃ d ∈ mills, Lacking millWorkers millKeys d.service := by
    rintro ⟨d, hd, lacks⟩
    exact exists_keyed_iff.mp ⟨_, keyed d hd⟩ lacks
  have texted : ¬ ∃ d ∈ mills, ∃ pair, Keyed millWorkers millKeys d.service pair ∧
      pair.publicKey.kind = "" := by
    rintro ⟨d, hd, pair, found, empty⟩
    have same := (keyed_iff.mp (keyed d hd)).symm.trans (keyed_iff.mp found)
    cases same
    exact absurd empty (by decide)
  have keyless := (encode_decides PublicKey.kind millWorkers .empty texts).1.mpr
    (not_overlong_mills _)
  have blank := (encode_decides (fun _ => "") millWorkers millKeys texts).1.mpr
    (not_overlong_mills _)
  have told := (encode_decides PublicKey.kind millWorkers millKeys texts).1.mpr
    (not_overlong_mills _)
  obtain ⟨entries, ok⟩ := told.filled.mpr ⟨complete, texted⟩
  obtain ⟨-, nodup, -, list⟩ := told.sound entries ok
  refine ⟨texts, (keyless.missing miller).mpr ⟨⟨mill, ⟨[17], by decide⟩⟩, ?_, missing⟩,
    blank.broken.mpr ⟨complete, ?_⟩, entries, ok, nodup, list⟩
  · exact ⟨[], _, rfl, fun _ before => absurd before List.not_mem_nil, miller, missing⟩
  · exact ⟨_, List.mem_cons_self, _, keyed _ List.mem_cons_self, rfl⟩

/-- The mill, with a version that is not written. -/
def longMill : NotaryDeclaration := ⟨mill, longVersions⟩

/-- Nothing is missing for a mill whose version is not written, and its encoding fails. -/
theorem not_decides_long :
    longMill.service.Renderable ∧ (∃ pair, Keyed millWorkers millKeys longMill.service pair) ∧
      (encode PublicKey.kind [longMill] millWorkers millKeys).outcome = .error .tooManyDigits ∧
      ¬ Decides PublicKey.kind millWorkers millKeys [longMill] := by
  have keyed : Keyed millWorkers millKeys mill ⟨"RSA", .rsa 35 5⟩ := ⟨miller, rfl, rfl⟩
  have unmade : entriesFrom PublicKey.kind millWorkers millKeys 0 [longMill] =
      .error .tooManyDigits :=
    entriesFrom_cons_eq_error.mpr
      (.inl (.unwritten (keyed_iff.mp keyed) renderable_mill (not_writable_longVersions mill)))
  have fails : (encode PublicKey.kind [longMill] millWorkers millKeys).outcome =
      .error .tooManyDigits := encode_eq_error.mpr (.inl unmade)
  exact ⟨renderable_mill, ⟨_, keyed⟩, fails, fun decides => decides.ne_tooManyDigits fails⟩

end NotaryNetwork.Parameters
