import Mathlib.Data.List.Forall2
import NotaryNetwork.Proofs.Build.Encoding
import NotaryNetwork.Proofs.Identity.RoundTrip
import NotaryNetwork.Text.Search

/-!
# Group parameters are read back

The key of an entry is read from its parts between the dots (`read?_render`). The entries of one
service are those with its number (`group_rowFields`), and among them stand its name, the key of its
worker and its versions, each under its own number (`readGroup_fields`). So the entries alone give
back all declarations and the keys of their workers, and no other declarations have the same entries
(`decode_of_encode`).
-/

namespace NotaryNetwork

open Text (digits)

/-! ## Numbers and keys -/

namespace Text

/-- The number that a text spells with decimal digits. -/
def decimal? (text : String) : Option Nat :=
  if text.toList ≠ [] ∧ text.toList.all Char.isDigit = true then some (ofDigits text.toList)
  else none

theorem digits_ne_nil (n : Nat) : digits n ≠ [] := by
  intro empty
  rcases canonical_digits n with zero | ⟨c, cs, more, -, -⟩
  · simp [empty] at zero
  · simp [empty] at more

@[simp]
theorem decimal?_repr (n : Nat) : decimal? n.repr = some n := by
  have spelled : digits n ≠ [] ∧ (digits n).all Char.isDigit = true :=
    ⟨digits_ne_nil n, List.all_eq_true.mpr fun c => isDigit_of_mem_digits⟩
  have read : decimal? n.repr = some (ofDigits (digits n)) := if_pos spelled
  rw [read, ofDigits_digits]

theorem pieces_of_not_mem {mark : Char} {word : List Char} (h : mark ∉ word) :
    pieces mark word = [word] := by
  induction word with
  | nil => rfl
  | cons c word ih =>
    have other : ¬ c = mark := fun same => h (same ▸ List.mem_cons_self)
    rw [pieces, if_neg other, ih (mt (List.mem_cons_of_mem c) h)]

/-- The first piece ends at the first mark. -/
theorem pieces_append {mark : Char} {word : List Char} (h : mark ∉ word) (rest : List Char) :
    pieces mark (word ++ mark :: rest) = word :: pieces mark rest := by
  induction word with
  | nil => simp [pieces]
  | cons c word ih =>
    have other : ¬ c = mark := fun same => h (same ▸ List.mem_cons_self)
    rw [List.cons_append, pieces, if_neg other, ih (mt (List.mem_cons_of_mem c) h)]

end Text

namespace ParameterKey

/-- The key with given parts. -/
def ofParts? : List String → Option ParameterKey
  | ["service", n, "name"] => (Text.decimal? n).map name
  | ["service", n, "keys", "0"] => (Text.decimal? n).map publicKey
  | ["service", n, "flow", "protocol", "name"] => (Text.decimal? n).map protocol
  | ["service", n, "flow", "protocol", "version", index] => do
    return version (← Text.decimal? n) (← Text.decimal? index)
  | _ => none

/-- The key that a text spells, its parts with dots between them. -/
def read? (text : String) : Option ParameterKey :=
  ofParts? ((Text.pieces '.' text.toList).map String.ofList)

def isName : ParameterKey → Bool
  | name _ => true
  | publicKey _ | protocol _ | version _ _ => false

def isVersion : ParameterKey → Bool
  | version _ _ => true
  | name _ | publicKey _ | protocol _ => false

/-- The parts of a key after the number of the service. -/
def parts : ParameterKey → List String
  | name _ => ["name"]
  | publicKey _ => ["keys", "0"]
  | protocol _ => ["flow", "protocol", "name"]
  | version _ index => ["flow", "protocol", "version", index.repr]

theorem pieces_tail (key : ParameterKey) :
    Text.pieces '.' key.tail = key.parts.map String.toList := by
  cases key with
  | name n => rfl
  | publicKey n => rfl
  | protocol n => rfl
  | version n index =>
    have words : (version n index).tail = "flow".toList ++ '.' :: ("protocol".toList ++ '.' ::
      ("version".toList ++ '.' :: digits index)) := rfl
    rw [words, Text.pieces_append (by decide), Text.pieces_append (by decide),
      Text.pieces_append (by decide), Text.pieces_of_not_mem (Text.dot_not_mem_digits index)]
    rfl

theorem pieces_render (key : ParameterKey) : Text.pieces '.' key.render.toList =
    ("service" :: key.service.repr :: key.parts).map String.toList := by
  have first : key.render.toList =
      "service".toList ++ '.' :: (digits key.service ++ '.' :: key.tail) := toList_render key
  rw [first, Text.pieces_append (by decide),
    Text.pieces_append (Text.dot_not_mem_digits key.service), pieces_tail]
  rfl

/-- **The text of a key is read as the key.** -/
@[simp]
theorem read?_render (key : ParameterKey) : read? key.render = some key := by
  have texts (words : List String) : (words.map String.toList).map String.ofList = words := by
    simp only [List.map_map, Function.comp_def, String.ofList_toList, List.map_id']
  rw [read?, pieces_render, texts]
  cases key <;> simp [parts, service, ofParts?]

end ParameterKey

/-! ## The declarations of entries -/

namespace Parameters

/-- A key and its value. -/
abbrev Field := ParameterKey × String

/-- The entries with their keys read. -/
def readFields (entries : List GroupParameter) : Option (List Field) :=
  entries.mapM fun e => (ParameterKey.read? e.key.val).map (·, e.value)

/-- What the entries of a service hold: the service, the text of a key, and versions. -/
structure Row (α : Type) where
  service : α
  publicKey : String
  versions : List Nat

/-- The fields of the service with a number. -/
def group (fields : List Field) (n : Nat) : List Field := fields.filter (·.1.service = n)

/-- The row of a service, its versions in the order of their numbers. -/
def readGroup (n : Nat) (fields : List Field) : Option (Row String) := do
  let text ← fields.lookup (.name n)
  let key ← fields.lookup (.publicKey n)
  let versions ← (List.range (fields.countP (·.1.isVersion))).mapM fun index =>
    (fields.lookup (.version n index)).bind Text.decimal?
  return ⟨text, key, versions⟩

/-- The rows of all services in the order of their numbers; every service has one name. -/
def readRows (fields : List Field) : Option (List (Row String)) :=
  (List.range (fields.countP (·.1.isName))).mapM fun n => readGroup n (group fields n)

def Row.parse (row : Row String) : Option (Row Identity) :=
  (Identity.parse row.service).toOption.map fun service => { row with service }

/-- The services of entries, with the texts of their keys and their versions. -/
def decode (entries : List GroupParameter) : Option (List (Row Identity)) := do
  let rows ← readRows (← readFields entries)
  rows.mapM Row.parse

/-! ## The entries of rows -/

def Field.entry (field : Field) : GroupParameter := field.1.entry field.2

theorem readFields_entries (fields : List Field) :
    readFields (fields.map Field.entry) = some fields := by
  induction fields with
  | nil => rfl
  | cons field fields ih =>
    have first : (ParameterKey.read? field.entry.key.val).map (·, field.entry.value) =
        some field := by
      simp [Field.entry, ParameterKey.entry]
    rw [readFields, List.map_cons, List.mapM_cons, first]
    rw [readFields] at ih
    rw [ih]
    rfl

/-- The fields of versions, numbered in turn. -/
def versionFields (service : Nat) : Nat → List Nat → List Field
  | _, [] => []
  | index, v :: vs => (.version service index, toString v) :: versionFields service (index + 1) vs

/-- The fields that a row fills. -/
def Row.fields (n : Nat) (row : Row String) : List Field :=
  (.name n, row.service) :: (.publicKey n, row.publicKey) :: (.protocol n, protocolName) ::
    versionFields n 0 row.versions

/-- The fields of rows from a number on. -/
def rowFields : Nat → List (Row String) → List Field
  | _, [] => []
  | n, row :: rows => row.fields n ++ rowFields (n + 1) rows

/-! ## Groups -/

/-- What is found at every place of a list makes the list. -/
theorem mapM_range' {α : Type} {f : Nat → Option α} {xs : List α} {start : Nat}
    (h : ∀ i x, xs[i]? = some x → f (start + i) = some x) :
    (List.range' start xs.length).mapM f = some xs := by
  induction xs generalizing start with
  | nil => rfl
  | cons x xs ih =>
    have first : f start = some x := h 0 x rfl
    have rest : (List.range' (start + 1) xs.length).mapM f = some xs := by
      apply ih
      intro i y place
      rw [Nat.add_assoc, Nat.add_comm 1 i]
      exact h (i + 1) y place
    rw [List.length_cons, List.range'_succ, List.mapM_cons, first, rest]
    rfl

theorem countP_versionFields (n start : Nat) (versions : List Nat) :
    (versionFields n start versions).countP (·.1.isVersion) = versions.length ∧
      (versionFields n start versions).countP (·.1.isName) = 0 := by
  induction versions generalizing start with
  | nil => simp [versionFields]
  | cons v vs ih =>
    obtain ⟨versions, names⟩ := ih (start + 1)
    constructor
    · rw [versionFields, List.countP_cons_of_pos rfl, versions, List.length_cons]
    · rw [versionFields, List.countP_cons_of_neg Bool.false_ne_true, names]

theorem lookup_other {key other : ParameterKey} (h : key ≠ other) (text : String)
    (fields : List Field) : ((other, text) :: fields).lookup key = fields.lookup key := by
  rw [List.lookup_cons, beq_false_of_ne h]

theorem lookup_versionFields {n start : Nat} {versions : List Nat} {j v : Nat}
    (place : versions[j]? = some v) :
    (versionFields n start versions).lookup (.version n (start + j)) = some v.repr := by
  induction versions generalizing start j with
  | nil => simp at place
  | cons w vs ih =>
    cases j with
    | zero =>
      cases place
      simp [versionFields]
    | succ j =>
      have later := @ih (start + 1) j place
      rw [Nat.add_assoc, Nat.add_comm 1 j] at later
      simpa [versionFields, lookup_other] using later

theorem service_of_mem_versionFields {n start : Nat} {versions : List Nat} {f : Field}
    (h : f ∈ versionFields n start versions) : f.1.service = n := by
  induction versions generalizing start with
  | nil => simp [versionFields] at h
  | cons v vs ih =>
    rcases List.mem_cons.mp h with rfl | later
    · rfl
    · exact ih later

namespace Row

variable {n : Nat} {row : Row String}

theorem service_of_mem_fields {f : Field} (h : f ∈ row.fields n) : f.1.service = n := by
  simp only [fields, List.mem_cons] at h
  rcases h with rfl | rfl | rfl | version
  · rfl
  · rfl
  · rfl
  · exact service_of_mem_versionFields version

/-- **The fields of a service are read as its row.** -/
theorem readGroup_fields (n : Nat) (row : Row String) : readGroup n (row.fields n) = some row := by
  have count : (row.fields n).countP (·.1.isVersion) = row.versions.length := by
    have versions := (countP_versionFields n 0 row.versions).1
    rw [fields, List.countP_cons_of_neg Bool.false_ne_true,
      List.countP_cons_of_neg Bool.false_ne_true, List.countP_cons_of_neg Bool.false_ne_true,
      versions]
  have versions : (List.range row.versions.length).mapM (fun index =>
      ((row.fields n).lookup (.version n index)).bind Text.decimal?) = some row.versions := by
    rw [List.range_eq_range']
    apply mapM_range'
    intro j v place
    have found := @lookup_versionFields n 0 _ _ _ place
    rw [Nat.zero_add] at found
    simp [fields, lookup_other, found]
  rw [readGroup, count, versions]
  simp [fields, lookup_other]

end Row

theorem le_service_of_mem_rowFields {n : Nat} {rows : List (Row String)} {f : Field}
    (h : f ∈ rowFields n rows) : n ≤ f.1.service := by
  induction rows generalizing n with
  | nil => simp [rowFields] at h
  | cons row rows ih =>
    rcases List.mem_append.mp h with here | later
    · exact Nat.le_of_eq (Row.service_of_mem_fields here).symm
    · exact Nat.le_of_succ_le (ih later)

theorem countP_rowFields (n : Nat) (rows : List (Row String)) :
    (rowFields n rows).countP (·.1.isName) = rows.length := by
  induction rows generalizing n with
  | nil => rfl
  | cons row rows ih =>
    have names : (row.fields n).countP (·.1.isName) = 1 := by
      have versions := (countP_versionFields n 0 row.versions).2
      rw [Row.fields, List.countP_cons_of_pos rfl, List.countP_cons_of_neg Bool.false_ne_true,
        List.countP_cons_of_neg Bool.false_ne_true, versions]
    rw [rowFields, List.countP_append, names, ih, List.length_cons, Nat.add_comm]

theorem group_eq_nil {fields : List Field} {n : Nat} (h : ∀ f ∈ fields, f.1.service ≠ n) :
    group fields n = [] := by
  apply List.filter_eq_nil_iff.mpr
  intro f hf same
  exact h f hf (of_decide_eq_true same)

/-- Every service has its own fields for its group. -/
theorem group_rowFields {n : Nat} {rows : List (Row String)} {i : Nat} {row : Row String}
    (place : rows[i]? = some row) : group (rowFields n rows) (n + i) = row.fields (n + i) := by
  -- Only the fields of the service itself have its number, wherever it stands.
  induction rows generalizing n i with
  | nil => simp at place
  | cons first rows ih =>
    have split (m : Nat) : group (rowFields n (first :: rows)) m =
        group (first.fields n) m ++ group (rowFields (n + 1) rows) m :=
      List.filter_append _ _
    cases i with
    | zero =>
      obtain rfl : first = row := by simpa using place
      have own : group (first.fields n) n = first.fields n := by
        apply List.filter_eq_self.mpr
        intro f hf
        exact decide_eq_true (Row.service_of_mem_fields hf)
      have others : group (rowFields (n + 1) rows) n = [] := by
        apply group_eq_nil
        intro f hf same
        have least := le_service_of_mem_rowFields hf
        omega
      rw [Nat.add_zero, split, own, others, List.append_nil]
    | succ i =>
      have foreign : group (first.fields n) (n + (i + 1)) = [] := by
        apply group_eq_nil
        intro f hf same
        have own := Row.service_of_mem_fields hf
        omega
      have later := @ih (n + 1) i place
      rw [Nat.add_assoc, Nat.add_comm 1 i] at later
      rw [split, foreign, List.nil_append, later]

/-- **The fields of rows are read as the rows.** -/
theorem readRows_rowFields (rows : List (Row String)) :
    readRows (rowFields 0 rows) = some rows := by
  rw [readRows, countP_rowFields, List.range_eq_range']
  apply mapM_range'
  intro i row place
  rw [group_rowFields place, Row.readGroup_fields]

/-! ## Declarations -/

variable {encodeKey : PublicKey → String} {workers : Table Identity Identity}
  {keys : Table Identity KeyPair}

/-- The key of the worker of a service is encoded as a text. -/
def WorkerKey (encodeKey : PublicKey → String) (workers : Table Identity Identity)
    (keys : Table Identity KeyPair) (service : Identity) (text : String) : Prop :=
  ∃ worker pair, workers.get? service = some worker ∧ keys.get? worker = some pair ∧
    text = encodeKey pair.publicKey

/-- A row holds a declaration and the key of its worker. -/
structure Tells (encodeKey : PublicKey → String) (workers : Table Identity Identity)
    (keys : Table Identity KeyPair) (d : NotaryDeclaration) (row : Row Identity) : Prop where
  service : row.service = d.service
  versions : row.versions = d.versions.val
  publicKey : WorkerKey encodeKey workers keys d.service row.publicKey

theorem versionEntries_eq (n start : Nat) (versions : List Nat) :
    versionEntries n start (versions.map toString) =
      (versionFields n start versions).map Field.entry := by
  induction versions generalizing start with
  | nil => rfl
  | cons v vs ih =>
    rw [List.map_cons, versionEntries, ih]
    rfl

/-- The entries of declarations are those of rows, which are read as the declarations. -/
theorem exists_rows {n : Nat} {ds : List NotaryDeclaration} {entries : List GroupParameter}
    (h : entriesFrom encodeKey workers keys n ds = .ok entries) :
    ∃ rows told, entries = (rowFields n rows).map Field.entry ∧ rows.mapM Row.parse = some told ∧
      List.Forall₂ (Tells encodeKey workers keys) ds told := by
  induction ds generalizing n entries with
  | nil =>
    cases h
    exact ⟨[], [], rfl, rfl, .nil⟩
  | cons d ds ih =>
    obtain ⟨pair, text, rest, found, rendered, -, later, rfl⟩ := entriesFrom_cons.mp h
    obtain ⟨rows, told, rfl, parsed, tells⟩ := ih later
    have spelled : Identity.parse text = .ok d.service := (Identity.parse_render rendered).1
    refine ⟨⟨text, encodeKey pair.publicKey, d.versions.val⟩ :: rows,
      ⟨d.service, encodeKey pair.publicKey, d.versions.val⟩ :: told, ?_, ?_, ?_⟩
    · rw [serviceEntries, NotaryDeclaration.versionTexts, versionEntries_eq, rowFields,
        List.map_append]
      rfl
    · have first : Row.parse ⟨text, encodeKey pair.publicKey, d.versions.val⟩ =
          some ⟨d.service, encodeKey pair.publicKey, d.versions.val⟩ := by
        rw [Row.parse, spelled]
        rfl
      rw [List.mapM_cons, first, parsed]
      rfl
    · obtain ⟨worker, mapped, keyed⟩ := workerPair_eq_ok.mp found
      exact .cons ⟨rfl, rfl, worker, pair, mapped, keyed, rfl⟩ tells

/-- Rows tell one sequence of declarations, and the texts of its keys. -/
theorem eq_of_tells {encodeKey' : PublicKey → String} {workers' : Table Identity Identity}
    {keys' : Table Identity KeyPair} {ds ds' : List NotaryDeclaration} {told : List (Row Identity)}
    (h : List.Forall₂ (Tells encodeKey workers keys) ds told)
    (h' : List.Forall₂ (Tells encodeKey' workers' keys') ds' told) :
    ds' = ds ∧ ∀ d ∈ ds, ∃ text, WorkerKey encodeKey workers keys d.service text ∧
      WorkerKey encodeKey' workers' keys' d.service text := by
  induction h generalizing ds' with
  | nil =>
    cases h'
    exact ⟨rfl, by simp⟩
  | @cons d row ds told tells rest ih =>
    obtain ⟨d', ds', tells', rest', rfl⟩ := List.forall₂_cons_right_iff.mp h'
    have service : d'.service = d.service := tells'.service.symm.trans tells.service
    have versions : d'.versions = d.versions :=
      Subtype.ext (tells'.versions.symm.trans tells.versions)
    have same : d' = d := by
      cases d
      cases d'
      exact congr (congrArg NotaryDeclaration.mk service) versions
    subst same
    obtain ⟨rfl, keyed⟩ := ih rest'
    refine ⟨rfl, ?_⟩
    intro e he
    rcases List.mem_cons.mp he with rfl | later
    · exact ⟨row.publicKey, tells.publicKey, tells'.publicKey⟩
    · exact keyed e later

/-- **Entries alone give back the declarations, and the keys of their workers.** Each row that is
read holds the service, the versions and the key of the declaration in its place, and all that is
encoded by the same entries are the same declarations, with equally encoded keys. -/
theorem decode_of_encode {ds : List NotaryDeclaration} {entries : List GroupParameter}
    (h : (encode encodeKey ds workers keys).outcome = .ok entries) :
    (∃ told, decode entries = some told ∧ List.Forall₂ (Tells encodeKey workers keys) ds told) ∧
      ∀ encodeKey' ds' workers' keys',
        (encode encodeKey' ds' workers' keys').outcome = .ok entries →
          ds' = ds ∧ ∀ d ∈ ds, ∃ text, WorkerKey encodeKey workers keys d.service text ∧
            WorkerKey encodeKey' workers' keys' d.service text := by
  have read : ∀ {encodeKey' ds' workers' keys'},
      (encode encodeKey' ds' workers' keys').outcome = .ok entries →
        ∃ told, decode entries = some told ∧
          List.Forall₂ (Tells encodeKey' workers' keys') ds' told := by
    intro encodeKey' ds' workers' keys' encoded
    obtain ⟨made, -⟩ := encode_eq_ok.mp encoded
    obtain ⟨rows, told, rfl, parsed, tells⟩ := exists_rows made
    refine ⟨told, ?_, tells⟩
    rw [decode, readFields_entries]
    simp only [Option.bind_eq_bind, Option.bind_some, readRows_rowFields, parsed]
  obtain ⟨told, decoded, tells⟩ := read h
  refine ⟨⟨told, decoded, tells⟩, ?_⟩
  intro encodeKey' ds' workers' keys' encoded
  obtain ⟨told', decoded', tells'⟩ := read encoded
  obtain rfl : told = told' := Option.some.inj (decoded.symm.trans decoded')
  exact eq_of_tells tells tells'

/-- An archive, which has a depot. -/
def archive : Identity := ⟨none, none, ⟨"Archief", by decide⟩, ⟨"Delft", by decide⟩, none,
  ⟨"NL", by decide⟩⟩

def depot : Identity := { archive with commonName := some ⟨"Depot", by decide⟩ }

/-- The archive is run by its depot, and the other service by the archive. -/
def archives : List NotaryDeclaration :=
  [⟨archive, ⟨[12, 10], by decide⟩⟩, ⟨Identity.awkward, ⟨[6], by decide⟩⟩]

def archiveWorkers : Table Identity Identity :=
  .ofList [(Identity.awkward, archive), (archive, depot)]

def archiveKeys : Table Identity KeyPair :=
  .ofList [(archive, ⟨"RSA", .rsa 35 5⟩), (depot, ⟨"RSA", .rsa 143 7⟩)]

def archiveEntries : List GroupParameter :=
  serviceEntries 0 "O=Archief, L=Delft, C=NL" "RSA:8" ["12", "10"] ++
    serviceEntries 1 "CN=\\ #a\\,\\\\\\00\\ , O=R3\\,\\ , L=\\\\, C=GB" "RSA:6" ["6"]

theorem decode_of_encode_archives :
    (encode PublicKey.kind archives archiveWorkers archiveKeys).outcome = .ok archiveEntries ∧
      (∃ told, decode archiveEntries = some told ∧
        List.Forall₂ (Tells PublicKey.kind archiveWorkers archiveKeys) archives told) ∧
      ∀ encodeKey' ds' workers' keys',
        (encode encodeKey' ds' workers' keys').outcome = .ok archiveEntries →
          ds' = archives ∧ ∀ d ∈ archives, ∃ text,
            WorkerKey PublicKey.kind archiveWorkers archiveKeys d.service text ∧
              WorkerKey encodeKey' workers' keys' d.service text := by
  have made : entriesFrom PublicKey.kind archiveWorkers archiveKeys 0 archives =
      .ok archiveEntries := rfl
  have filled : archiveEntries.all (fun e => decide (1 ≤ e.value.length)) = true := rfl
  have encoded := encode_eq_ok_iff.mpr ⟨made, by simpa using filled⟩
  exact ⟨encoded, decode_of_encode encoded⟩

end Parameters

end NotaryNetwork
