import Mathlib.Algebra.GroupWithZero.Nat
import NotaryNetwork.Build.Parameters
import NotaryNetwork.Proofs.Outcome
import NotaryNetwork.Proofs.Table
import NotaryNetwork.Proofs.Text.Decimal

/-!
# Group parameters of declarations

The keys of the entries are different texts (`render_injective`), and the entries of declarations
are those of every service in turn (`keys_entriesFrom`): their number is known from the
declarations, no key comes twice, and every service has the key of its worker under its own number.
More declarations add their entries behind the others (`entriesFrom_append`).
-/

namespace NotaryNetwork

open Text (digits)

/-! ## Keys -/

namespace ParameterKey

/-- The number of the service. -/
def service : ParameterKey → Nat
  | name service => service
  | publicKey service => service
  | protocol service => service
  | version service _ => service

/-- The text of a key after the number of the service. -/
def tail : ParameterKey → List Char
  | name _ => "name".toList
  | publicKey _ => "keys.0".toList
  | protocol _ => "flow.protocol.name".toList
  | version _ index => "flow.protocol.version.".toList ++ digits index

theorem toList_render (key : ParameterKey) :
    key.render.toList = "service.".toList ++ (digits key.service ++ '.' :: key.tail) := by
  have start : ∀ (n : Nat) (rest : String), (head n ++ rest).toList =
      "service.".toList ++ (digits n ++ rest.toList) := by
    intro n rest
    rw [head, String.toList_append, String.toList_append, List.append_assoc]
    rfl
  cases key with
  | name n => exact start n ".name"
  | publicKey n => exact start n ".keys.0"
  | protocol n => exact start n ".flow.protocol.name"
  | version n index =>
    rw [render, String.append_assoc, start, String.toList_append]
    rfl

theorem ne_version (word : List Char) (h : word.take 15 ≠ "flow.protocol.version.".toList.take 15)
    (index : Nat) : word ≠ "flow.protocol.version.".toList ++ digits index := by
  intro same
  have starts := congrArg (List.take 15) same
  rw [List.take_append_of_le_length (by decide)] at starts
  exact h starts

theorem tail_inj {a b : ParameterKey} (service : a.service = b.service) (h : a.tail = b.tail) :
    a = b := by
  have name_version := ne_version "name".toList (by decide)
  have key_version := ne_version "keys.0".toList (by decide)
  have protocol_version := ne_version "flow.protocol.name".toList (by decide)
  have name_key : "name".toList ≠ "keys.0".toList := by decide
  have name_protocol : "name".toList ≠ "flow.protocol.name".toList := by decide
  have key_protocol : "keys.0".toList ≠ "flow.protocol.name".toList := by decide
  cases a with
  | name n =>
    cases b with
    | name m => exact congrArg name service
    | publicKey m => exact absurd h name_key
    | protocol m => exact absurd h name_protocol
    | version m j => exact absurd h (name_version j)
  | publicKey n =>
    cases b with
    | name m => exact absurd h.symm name_key
    | publicKey m => exact congrArg publicKey service
    | protocol m => exact absurd h key_protocol
    | version m j => exact absurd h (key_version j)
  | protocol n =>
    cases b with
    | name m => exact absurd h.symm name_protocol
    | publicKey m => exact absurd h.symm key_protocol
    | protocol m => exact congrArg protocol service
    | version m j => exact absurd h (protocol_version j)
  | version n i =>
    cases b with
    | name m => exact absurd h.symm (name_version i)
    | publicKey m => exact absurd h.symm (key_version i)
    | protocol m => exact absurd h.symm (protocol_version i)
    | version m j =>
      obtain rfl : n = m := service
      exact congrArg _ (Text.digits_injective (List.append_cancel_left h))

/-- **Different keys have different texts.** -/
theorem render_injective {a b : ParameterKey} (h : a.render = b.render) : a = b := by
  have texts := congrArg String.toList h
  rw [toList_render, toList_render] at texts
  obtain ⟨service, tail⟩ := Text.digits_append_dot (List.append_cancel_left texts)
  exact tail_inj service tail

end ParameterKey

/-- All versions of a declaration are written. -/
def NotaryDeclaration.Writable (d : NotaryDeclaration) : Prop :=
  ∀ v ∈ d.versions.val, Text.Writable v

instance (d : NotaryDeclaration) : Decidable d.Writable :=
  inferInstanceAs (Decidable (∀ v ∈ d.versions.val, Text.Writable v))

/-- One version alone, which is not written. -/
def longVersions : ProtocolVersions :=
  ⟨[Text.leastLonger Text.mostDigits], List.cons_ne_nil _ _,
    List.forall_mem_singleton.mpr (Text.leastLonger_pos _), List.pairwise_singleton _ _⟩

theorem not_writable_longVersions (s : Identity) :
    ¬ (⟨s, longVersions⟩ : NotaryDeclaration).Writable := by
  intro writable
  exact Text.not_writable_leastLonger (writable _ List.mem_cons_self)

/-- The texts of the versions of a declaration. -/
def NotaryDeclaration.versionTexts (d : NotaryDeclaration) : List String :=
  d.versions.val.map toString

/-! ## Entries -/

namespace Parameters

/-! ### Versions -/

theorem versionText_eq_ok {v : Nat} {text : String} :
    versionText v = .ok text ↔ Text.Writable v ∧ text = toString v := by
  rw [← Text.written?_eq_some_iff]
  unfold versionText
  cases Text.written? v <;> simp

theorem versionText_eq_error {v : Nat} {f : Failure} :
    versionText v = .error f ↔ ¬ Text.Writable v ∧ f = .tooManyDigits := by
  rw [← Text.written?_eq_none_iff]
  unfold versionText
  cases Text.written? v <;> simp [eq_comm]

theorem mapM_versionText_eq_ok {vs : List Nat} {texts : List String} :
    vs.mapM versionText = .ok texts ↔ (∀ v ∈ vs, Text.Writable v) ∧ texts = vs.map toString := by
  induction vs generalizing texts with
  | nil => simp [pure, Except.pure, eq_comm]
  | cons v vs ih =>
    rw [List.mapM_cons, bind_eq_ok, List.forall_mem_cons]
    simp only [versionText_eq_ok, bind_eq_ok, ih]
    constructor
    · rintro ⟨_, ⟨first, rfl⟩, _, ⟨later, rfl⟩, same⟩
      cases same
      exact ⟨⟨first, later⟩, rfl⟩
    · rintro ⟨⟨first, later⟩, rfl⟩
      exact ⟨_, ⟨first, rfl⟩, _, ⟨later, rfl⟩, rfl⟩

theorem mapM_versionText_eq_error {vs : List Nat} {f : Failure} :
    vs.mapM versionText = .error f ↔ (¬ ∀ v ∈ vs, Text.Writable v) ∧ f = .tooManyDigits := by
  induction vs with
  | nil => simp [pure, Except.pure]
  | cons v vs ih =>
    rw [List.mapM_cons, bind_eq_error, List.forall_mem_cons]
    simp only [versionText_eq_error, versionText_eq_ok, bind_eq_error, ih]
    constructor
    · rintro (⟨long, rfl⟩ | ⟨_, -, ⟨long, rfl⟩ | ⟨_, -, same⟩⟩)
      · exact ⟨fun h => long h.1, rfl⟩
      · exact ⟨fun h => long h.2, rfl⟩
      · cases same
    · rintro ⟨long, rfl⟩
      by_cases first : Text.Writable v
      · exact .inr ⟨_, ⟨first, rfl⟩, .inl ⟨fun later => long ⟨first, later⟩, rfl⟩⟩
      · exact .inl ⟨first, rfl⟩

/-! ### Services -/

/-- The keys of a service with a number of versions. -/
def serviceKeys (service versions : Nat) : List ParameterKey :=
  .name service :: .publicKey service :: .protocol service ::
    (List.range' 0 versions).map (.version service)

/-- The keys of declarations from a number on. -/
def keysFrom : Nat → List NotaryDeclaration → List ParameterKey
  | _, [] => []
  | index, d :: rest => serviceKeys index d.versions.val.length ++ keysFrom (index + 1) rest

theorem nodup_serviceKeys (service versions : Nat) : (serviceKeys service versions).Nodup := by
  have numbered : ((List.range' 0 versions).map (ParameterKey.version service)).Nodup := by
    have places : (List.range' 0 versions).Nodup := List.nodup_range'
    refine List.pairwise_map.mpr (places.imp fun apart same => apart ?_)
    cases same
    rfl
  unfold serviceKeys
  simp [numbered]

theorem service_of_mem_serviceKeys {service versions : Nat} {key : ParameterKey}
    (h : key ∈ serviceKeys service versions) : key.service = service := by
  unfold serviceKeys at h
  simp only [List.mem_cons, List.mem_map] at h
  rcases h with rfl | rfl | rfl | ⟨index, -, rfl⟩ <;> rfl

theorem le_service_of_mem_keysFrom {ds : List NotaryDeclaration} {index : Nat} {key : ParameterKey}
    (h : key ∈ keysFrom index ds) : index ≤ key.service := by
  induction ds generalizing index with
  | nil => cases h
  | cons d ds ih =>
    rcases List.mem_append.mp h with here | later
    · exact Nat.le_of_eq (service_of_mem_serviceKeys here).symm
    · exact Nat.le_of_succ_le (ih later)

theorem service_lt_of_mem_keysFrom {ds : List NotaryDeclaration} {index : Nat} {key : ParameterKey}
    (h : key ∈ keysFrom index ds) : key.service < index + ds.length := by
  induction ds generalizing index with
  | nil => cases h
  | cons d ds ih =>
    rw [List.length_cons]
    rcases List.mem_append.mp h with here | later
    · have own := service_of_mem_serviceKeys here
      omega
    · have bound := ih later
      omega

theorem nodup_keysFrom (index : Nat) (ds : List NotaryDeclaration) : (keysFrom index ds).Nodup := by
  induction ds generalizing index with
  | nil => exact List.nodup_nil
  | cons d ds ih =>
    refine List.nodup_append.mpr ⟨nodup_serviceKeys _ _, ih (index + 1), ?_⟩
    rintro key here _ later rfl
    have own := service_of_mem_serviceKeys here
    have least := le_service_of_mem_keysFrom later
    omega

theorem length_keysFrom (index : Nat) (ds : List NotaryDeclaration) :
    (keysFrom index ds).length = (ds.map fun d => 3 + d.versions.val.length).sum := by
  induction ds generalizing index with
  | nil => rfl
  | cons d ds ih =>
    rw [keysFrom, List.length_append, ih, List.map_cons, List.sum_cons]
    simp only [serviceKeys, List.length_cons, List.length_map, List.length_range']
    omega

theorem keys_versionEntries (service index : Nat) (versions : List String) :
    (versionEntries service index versions).map (·.key.val) =
      ((List.range' index versions.length).map (ParameterKey.version service)).map
        ParameterKey.render := by
  induction versions generalizing index with
  | nil => rfl
  | cons v vs ih =>
    rw [versionEntries, List.map_cons, ih]
    rfl

theorem keys_serviceEntries (service : Nat) (text key : String) (versions : List String) :
    (serviceEntries service text key versions).map (·.key.val) =
      (serviceKeys service versions.length).map ParameterKey.render := by
  rw [serviceEntries, List.map_cons, List.map_cons, List.map_cons, keys_versionEntries]
  rfl

variable {encodeKey : PublicKey → String} {workers workers' : Table Identity Identity}
  {keys keys' : Table Identity KeyPair}

theorem workerPair_eq_ok {service : Identity} {pair : KeyPair} :
    workerPair workers keys service = .ok pair ↔
      ∃ worker, workers.get? service = some worker ∧ keys.get? worker = some pair := by
  unfold workerPair
  cases workers.get? service with
  | none => simp
  | some worker => cases found : keys.get? worker <;> simp [found]

theorem entriesFrom_cons {index : Nat} {d : NotaryDeclaration} {ds : List NotaryDeclaration}
    {entries : List GroupParameter} :
    entriesFrom encodeKey workers keys index (d :: ds) = .ok entries ↔
      ∃ pair text rest, workerPair workers keys d.service = .ok pair ∧ d.service.render = .ok text ∧
        d.Writable ∧ entriesFrom encodeKey workers keys (index + 1) ds = .ok rest ∧
        entries = serviceEntries index text (encodeKey pair.publicKey) d.versionTexts ++ rest := by
  rw [entriesFrom, bind_eq_ok]
  constructor
  · rintro ⟨pair, found, h⟩
    obtain ⟨text, rendered, h⟩ := bind_eq_ok.mp h
    obtain ⟨texts, written, h⟩ := bind_eq_ok.mp h
    obtain ⟨rest, later, h⟩ := bind_eq_ok.mp h
    obtain ⟨writable, rfl⟩ := mapM_versionText_eq_ok.mp written
    cases h
    exact ⟨pair, text, rest, found, mapError_eq_ok.mp rendered, writable, later, rfl⟩
  · rintro ⟨pair, text, rest, found, rendered, writable, later, rfl⟩
    refine ⟨pair, found, ?_⟩
    rw [rendered, mapM_versionText_eq_ok.mpr ⟨writable, rfl⟩, later]
    rfl

theorem entriesFrom_append {index : Nat} {ds es : List NotaryDeclaration}
    {entries : List GroupParameter} :
    entriesFrom encodeKey workers keys index (ds ++ es) = .ok entries ↔
      ∃ first rest, entriesFrom encodeKey workers keys index ds = .ok first ∧
        entriesFrom encodeKey workers keys (index + ds.length) es = .ok rest ∧
        entries = first ++ rest := by
  induction ds generalizing index entries with
  | nil => simp [entriesFrom]
  | cons d ds ih =>
    have next : index + 1 + ds.length = index + (d :: ds).length := by
      rw [List.length_cons]
      omega
    rw [List.cons_append, entriesFrom_cons]
    constructor
    · intro h
      obtain ⟨pair, text, _, found, rendered, writable, later, rfl⟩ := h
      obtain ⟨first, rest, made, more, rfl⟩ := ih.mp later
      have here := entriesFrom_cons.mpr ⟨pair, text, first, found, rendered, writable, made, rfl⟩
      refine ⟨_, rest, here, ?_, ?_⟩
      · rw [← next]
        exact more
      · rw [List.append_assoc]
    · intro h
      obtain ⟨_, rest, here, more, rfl⟩ := h
      obtain ⟨pair, text, first, found, rendered, writable, made, rfl⟩ := entriesFrom_cons.mp here
      rw [← next] at more
      have later := ih.mpr ⟨first, rest, made, more, rfl⟩
      refine ⟨pair, text, first ++ rest, found, rendered, writable, later, ?_⟩
      rw [List.append_assoc]

/-- Services that are given their keys by longer tables too have the same entries. -/
theorem entriesFrom_of_prefix (moreWorkers : workers.entries <+: workers'.entries)
    (moreKeys : keys.entries <+: keys'.entries) {index : Nat} {ds : List NotaryDeclaration}
    {entries : List GroupParameter}
    (h : entriesFrom encodeKey workers keys index ds = .ok entries) :
    entriesFrom encodeKey workers' keys' index ds = .ok entries := by
  have found' {service : Identity} {pair : KeyPair}
      (found : workerPair workers keys service = .ok pair) :
      workerPair workers' keys' service = .ok pair := by
    obtain ⟨worker, mapped, keyed⟩ := workerPair_eq_ok.mp found
    exact workerPair_eq_ok.mpr ⟨worker, Table.get?_of_prefix moreWorkers mapped,
      Table.get?_of_prefix moreKeys keyed⟩
  induction ds generalizing index entries with
  | nil => exact h
  | cons d ds ih =>
    obtain ⟨pair, text, rest, found, rendered, writable, later, rfl⟩ := entriesFrom_cons.mp h
    exact entriesFrom_cons.mpr ⟨pair, text, rest, found' found, rendered, writable, ih later, rfl⟩

/-- **The keys of the entries are those of the declarations.** -/
theorem keys_entriesFrom {index : Nat} {ds : List NotaryDeclaration} {entries : List GroupParameter}
    (h : entriesFrom encodeKey workers keys index ds = .ok entries) :
    entries.map (·.key.val) = (keysFrom index ds).map ParameterKey.render := by
  induction ds generalizing index entries with
  | nil =>
    cases h
    rfl
  | cons d ds ih =>
    obtain ⟨pair, text, rest, -, -, -, later, rfl⟩ := entriesFrom_cons.mp h
    rw [List.map_append, ih later, keys_serviceEntries, keysFrom, List.map_append,
      NotaryDeclaration.versionTexts, List.length_map]

theorem exists_key {index : Nat} {ds : List NotaryDeclaration} {entries : List GroupParameter}
    (h : entriesFrom encodeKey workers keys index ds = .ok entries) {e : GroupParameter}
    (member : e ∈ entries) : ∃ key ∈ keysFrom index ds, e.key.val = key.render := by
  have key : e.key.val ∈ entries.map (·.key.val) := List.mem_map.mpr ⟨e, member, rfl⟩
  rw [keys_entriesFrom h] at key
  obtain ⟨key, here, text⟩ := List.mem_map.mp key
  exact ⟨key, here, text.symm⟩

theorem length_entriesFrom {index : Nat} {ds : List NotaryDeclaration}
    {entries : List GroupParameter}
    (h : entriesFrom encodeKey workers keys index ds = .ok entries) :
    entries.length = (ds.map fun d => 3 + d.versions.val.length).sum := by
  have keys := congrArg List.length (keys_entriesFrom h)
  rw [List.length_map, List.length_map, length_keysFrom] at keys
  exact keys

theorem nodup_keys_entriesFrom {index : Nat} {ds : List NotaryDeclaration}
    {entries : List GroupParameter}
    (h : entriesFrom encodeKey workers keys index ds = .ok entries) :
    (entries.map (·.key.val)).Nodup := by
  rw [keys_entriesFrom h]
  exact List.pairwise_map.mpr ((nodup_keysFrom index ds).imp fun apart same =>
    apart (ParameterKey.render_injective same))

/-- Every service has the key of its worker under its own number. -/
theorem publicKey_mem_entriesFrom {index : Nat} {ds : List NotaryDeclaration}
    {entries : List GroupParameter} (h : entriesFrom encodeKey workers keys index ds = .ok entries)
    {i : Nat} {d : NotaryDeclaration} (place : ds[i]? = some d) :
    ∃ pair, workerPair workers keys d.service = .ok pair ∧
      (ParameterKey.publicKey (index + i)).entry (encodeKey pair.publicKey) ∈ entries := by
  induction ds generalizing index entries i with
  | nil => cases place
  | cons d' ds ih =>
    obtain ⟨pair, text, rest, found, -, -, later, rfl⟩ := entriesFrom_cons.mp h
    cases i with
    | zero =>
      cases place
      exact ⟨pair, found, List.mem_append_left _ (List.mem_cons_of_mem _ List.mem_cons_self)⟩
    | succ i =>
      obtain ⟨pair', found', member⟩ := ih later place
      refine ⟨pair', found', List.mem_append_right _ ?_⟩
      rw [Nat.add_comm i 1, ← Nat.add_assoc]
      exact member

theorem outcome_encode (encodeKey : PublicKey → String) (ds : List NotaryDeclaration)
    (workers : Table Identity Identity) (keys : Table Identity KeyPair) :
    (encode encodeKey ds workers keys).outcome = (do
      let entries ← entriesFrom encodeKey workers keys 0 ds
      (Contract.groupParameters.validate (toDocument entries)).mapError Failure.contract
      return entries) := by
  unfold encode
  simp only [Traced.outcome_bind, Traced.outcome_ofExcept, Traced.outcome_log, Traced.outcome_pure]
  rfl

theorem encode_eq_ok {ds : List NotaryDeclaration} {entries : List GroupParameter} :
    (encode encodeKey ds workers keys).outcome = .ok entries ↔
      entriesFrom encodeKey workers keys 0 ds = .ok entries ∧
        Contract.groupParameters.validate (toDocument entries) = .ok () := by
  rw [outcome_encode, bind_eq_ok]
  constructor
  · rintro ⟨entries', made, h⟩
    obtain ⟨_, valid, h⟩ := bind_eq_ok.mp h
    cases h
    exact ⟨made, mapError_eq_ok.mp valid⟩
  · rintro ⟨made, valid⟩
    refine ⟨entries, made, ?_⟩
    rw [valid]
    rfl

end Parameters

end NotaryNetwork
