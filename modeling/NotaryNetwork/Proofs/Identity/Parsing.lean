import Mathlib.Data.List.Nodup
import NotaryNetwork.Proofs.Identity.RoundTrip
import NotaryNetwork.Proofs.Record

/-!
# Which texts make identities

A text makes an identity if and only if the identity has a text itself and the given one spells a
name whose attributes are those of the identity, in any order and grouping (`parse_eq_ok_iff`). Put
in terms of the given text alone: it must spell a name whose attributes are acceptable
(`Acceptable`), and the fields of the identity are then their values (`parse_accepts`).
-/

namespace NotaryNetwork.Identity

open Name (Spells)

/-! ## Fields from texts -/

theorem val_of_checkLabel {most : Nat} {s : String} {text : Label most}
    (h : Record.checkLabel most s = .ok text) : text.val = s := by
  unfold Record.checkLabel at h
  split at h
  · split at h
    · cases h
      rfl
    · cases h
  · cases h

theorem optional_inv {most : Nat} {name : String} {given : Option String}
    {text : Option (Label most)}
    (h : Record.optional name (Record.readLabel most) (given.map Json.Value.text) = .ok text) :
    text.map (·.val) = given := by
  cases given with
  | none =>
    cases h
    rfl
  | some s =>
    have read := Checked.within_eq_ok h
    cases checked : Record.readLabel most (.text s) with
    | error issues => rw [checked] at read; cases read
    | ok label =>
      rw [checked] at read
      cases read
      exact congrArg some (val_of_checkLabel checked)

theorem required_inv {most : Nat} {name : String} {given : Option String} {text : Label most}
    (h : Record.required name (Record.readLabel most) (given.map Json.Value.text) = .ok text) :
    some text.val = given := by
  cases given with
  | none => cases h
  | some s => exact congrArg some (val_of_checkLabel (Checked.within_eq_ok h))

theorem country_inv {name : String} {given : Option String} {code : CountryCode}
    (h : Record.required name readCountry (given.map Json.Value.text) = .ok code) :
    some code.val = given := by
  cases given with
  | none => cases h
  | some s =>
    have read : readCountry (.text s) = .ok code := Checked.within_eq_ok h
    rw [readCountry_text] at read
    split at read
    · cases read
      rfl
    · cases read

/-- An identity made from texts has them as its fields. -/
theorem get?_of_ofFields {given : Field → Option String} {i : Identity}
    (h : ofFields (fun field => (given field).map Json.Value.text) = .ok i) (f : Field) :
    i.get? f = given f := by
  unfold ofFields at h
  obtain ⟨_, code, five, country, rfl⟩ := Checked.both_eq_ok h
  obtain ⟨_, st, four, state, rfl⟩ := Checked.both_eq_ok five
  obtain ⟨_, l, three, locality, rfl⟩ := Checked.both_eq_ok four
  obtain ⟨_, o, two, organization, rfl⟩ := Checked.both_eq_ok three
  obtain ⟨_, ou, one, unit, rfl⟩ := Checked.both_eq_ok two
  obtain ⟨_, cn, made, common, rfl⟩ := Checked.both_eq_ok one
  cases made
  cases f with
  | commonName => exact optional_inv common
  | organizationUnit => exact optional_inv unit
  | organization => exact required_inv organization
  | locality => exact required_inv locality
  | state => exact optional_inv state
  | country => exact country_inv country

/-! ## Attributes of identities -/

theorem type_of_ofType? {type : Oid} {f : Field} (h : Field.ofType? type = some f) :
    f.type = type := by
  have found := List.find?_some h
  exact of_decide_eq_true found

theorem mem_fieldsOf {as : List Name.Attribute} {f : Field} {text : String} :
    (f, text) ∈ fieldsOf as ↔ ⟨f.type, text⟩ ∈ as := by
  unfold fieldsOf
  rw [List.mem_filterMap]
  constructor
  · rintro ⟨⟨type, value⟩, member, held⟩
    obtain ⟨g, known, e⟩ := Option.map_eq_some_iff.mp held
    cases e
    rw [type_of_ofType? known]
    exact member
  · intro member
    exact ⟨_, member, by rw [Field.ofType?_type]; rfl⟩

theorem map_fieldsOf {as : List Name.Attribute}
    (known : ∀ a ∈ as, (Field.ofType? a.type).isSome) :
    (fieldsOf as).map (fun entry => ⟨entry.1.type, entry.2⟩) = as := by
  induction as with
  | nil => rfl
  | cons a as ih =>
    obtain ⟨field, type⟩ := Option.isSome_iff_exists.mp (known a List.mem_cons_self)
    have behind := ih fun b hb => known b (List.mem_cons_of_mem a hb)
    rw [fieldsOf_cons type, List.map_cons, behind, type_of_ofType? type]

theorem known_of_collect {text : String} {found all : List (Field × String)}
    {as : List Name.Attribute} (h : collect text found as = .ok all)
    (once : (found.map (·.1)).Nodup) :
    (∀ a ∈ as, (Field.ofType? a.type).isSome) ∧ ((found ++ fieldsOf as).map (·.1)).Nodup := by
  induction as generalizing found with
  | nil => exact ⟨by simp, by simpa [fieldsOf] using once⟩
  | cons a as ih =>
    rw [collect] at h
    split at h
    · cases h
    · rename_i field type
      split at h
      · cases h
      · rename_i new
        have apart : ((found ++ [(field, a.value)]).map (·.1)).Nodup := by
          rw [List.map_append]
          refine List.nodup_append.mpr ⟨once, by simp, fun g hg g' hg' same => new ?_⟩
          obtain ⟨entry, member, rfl⟩ := List.mem_map.mp hg
          rw [List.map_singleton, List.mem_singleton] at hg'
          exact List.any_eq_true.mpr ⟨entry, member, decide_eq_true (same.trans hg')⟩
        obtain ⟨known, nodup⟩ := ih h apart
        rw [fieldsOf_cons type, List.append_cons]
        refine ⟨List.forall_mem_cons.mpr ⟨?_, known⟩, nodup⟩
        rw [type]
        rfl

/-- What an identity holds are the fields of its attributes. -/
theorem held_perm {i : Identity} {entries : List (Field × String)}
    (once : (entries.map (·.1)).Nodup) (h : ∀ f, i.get? f = entries.lookup f) :
    entries.Perm i.held := by
  refine (List.perm_ext_iff_of_nodup (once.of_map Prod.fst)
    (i.nodup_fields_held.of_map Prod.fst)).mpr ?_
  rintro ⟨f, text⟩
  rw [mem_held, h, lookup_eq_some_iff_mem once]

theorem Field.type_injective : Function.Injective Field.type := by
  intro f g same
  have back := congrArg Field.ofType? same
  rw [Field.ofType?_type, Field.ofType?_type] at back
  exact Option.some.inj back

theorem nodup_types (i : Identity) : (i.attributes.map (·.type)).Nodup := by
  have types : i.attributes.map (·.type) = (i.held.map (·.1)).map Field.type := by
    rw [attributes_eq_map_held, List.map_map, List.map_map]
    rfl
  rw [types]
  exact i.nodup_fields_held.map Field.type_injective

/-- The attributes of a name that makes an identity are those of the identity. -/
theorem perm_of_parse {t : String} {i : Identity} (h : parse t = .ok i) :
    ∃ groups, Name.read (normalized t) = .ok groups ∧ groups.flatten.Perm i.attributes := by
  unfold parse at h
  obtain ⟨groups, read, h⟩ := bind_eq_ok.mp h
  obtain ⟨found, collected, h⟩ := bind_eq_ok.mp h
  obtain ⟨known, once⟩ := known_of_collect collected List.nodup_nil
  rw [collect_eq_ok t known once, Except.ok.injEq, List.nil_append] at collected
  rw [List.nil_append] at once
  have fields := get?_of_ofFields (mapError_eq_ok.mp h)
  rw [← collected] at fields
  have perm := (held_perm once fields).map fun entry : Field × String =>
    (⟨entry.1.type, entry.2⟩ : Name.Attribute)
  rw [map_fieldsOf known, ← attributes_eq_map_held] at perm
  exact ⟨groups, mapError_eq_ok.mp read, (groups.reverse_perm.flatten.symm).trans perm⟩

/-- **A text makes an identity if and only if the identity has a text and the given one spells its
attributes, in any order and grouping.** -/
theorem parse_eq_ok_iff {t : String} {i : Identity} :
    parse t = .ok i ↔
      i.Renderable ∧ ∃ groups, Spells groups (normalized t) ∧ groups.flatten.Perm i.attributes := by
  constructor
  · intro h
    obtain ⟨groups, read, perm⟩ := perm_of_parse h
    obtain ⟨spelled, sound⟩ := Name.read_eq_ok_iff.mp read
    refine ⟨⟨_, render_eq_ok_iff.mpr ⟨fun a ha => ?_, rfl⟩⟩, groups, spelled, perm⟩
    exact sound.fits a (perm.mem_iff.mpr ha)
  · rintro ⟨⟨s, rendered⟩, groups, spelled, perm⟩
    have fits := (render_eq_ok_iff.mp rendered).1
    have nodup : groups.flatten.Nodup := perm.nodup_iff.mpr (i.nodup_types.of_map _)
    have read : Name.read (normalized t) = .ok groups := by
      refine Name.read_eq_ok_iff.mpr ⟨spelled, fun a ha => fits a (perm.mem_iff.mp ha), ?_⟩
      exact (List.nodup_flatten.mp nodup).1
    exact parse_of_read read (groups.reverse_perm.flatten.trans perm)

/-! ## Acceptable attributes -/

/-- The attributes of a name that makes an identity. -/
structure Acceptable (as : List Name.Attribute) : Prop where
  supported : ∀ a ∈ as, ∃ f : Field, f.type = a.type
  once : (as.map (·.type)).Nodup
  organization : ∃ a ∈ as, a.type = Name.organization
  locality : ∃ a ∈ as, a.type = Name.locality
  country : ∃ a ∈ as, a.type = Name.country
  lengths : ∀ a ∈ as, 1 ≤ a.value.length ∧
    a.value.length ≤ if a.type = Name.organization then 128 else 64
  /-- The size of a common name is also limited in bytes. -/
  bytes : ∀ a ∈ as, a.type = Name.commonName → Text.Utf8.size a.value.toList ≤ 64
  code : ∀ a ∈ as, a.type = Name.country →
    ∃ x y, a.value.toList = [x, y] ∧ ('A' ≤ x ∧ x ≤ 'Z') ∧ ('A' ≤ y ∧ y ≤ 'Z')

theorem mem_attributes_iff {i : Identity} {f : Field} {text : String} :
    ⟨f.type, text⟩ ∈ i.attributes ↔ i.get? f = some text := by
  rw [← mem_fieldsOf, fieldsOf_attributes, mem_held]

theorem length_of_get? {i : Identity} {f : Field} {text : String} (h : i.get? f = some text) :
    1 ≤ text.length ∧ text.length ≤ if f.type = Name.organization then 128 else 64 := by
  have label : ∀ {most : Nat} (given : Option (Label most)),
      given.map (·.val) = some text → 1 ≤ text.length ∧ text.length ≤ most := by
    intro most given h
    obtain ⟨l, -, rfl⟩ := Option.map_eq_some_iff.mp h
    exact l.property
  cases f with
  | commonName => exact label i.commonName h
  | organizationUnit => exact label i.organizationUnit h
  | organization => exact label (some i.organization) h
  | locality => exact label (some i.locality) h
  | state => exact label i.state h
  | country =>
    cases h
    obtain ⟨x, y, e, -, -⟩ := country_chars i.country
    have two : i.country.val.length = 2 := by rw [← String.length_toList, e]; rfl
    rw [two]
    decide

theorem acceptable_attributes {i : Identity} (h : i.Renderable) : Acceptable i.attributes where
  supported a ha := by
    obtain ⟨f, text, -, rfl⟩ := mem_attributes ha
    exact ⟨f, rfl⟩
  once := i.nodup_types
  organization := ⟨_, (mem_attributes_iff (f := .organization)).mpr rfl, rfl⟩
  locality := ⟨_, (mem_attributes_iff (f := .locality)).mpr rfl, rfl⟩
  country := ⟨_, (mem_attributes_iff (f := .country)).mpr rfl, rfl⟩
  lengths a ha := by
    obtain ⟨f, text, held, rfl⟩ := mem_attributes ha
    exact length_of_get? held
  bytes a ha type := by
    obtain ⟨f, text, held, rfl⟩ := mem_attributes ha
    obtain rfl : f = .commonName := Field.type_injective type
    obtain ⟨name, common, rfl⟩ := Option.map_eq_some_iff.mp held
    refine Nat.le_of_not_lt fun large => ?_
    exact (renderable_iff i).mp h ⟨name, common, large⟩
  code a ha type := by
    obtain ⟨f, text, held, rfl⟩ := mem_attributes ha
    obtain rfl : f = .country := Field.type_injective type
    cases held
    obtain ⟨x, y, e, hx, hy⟩ := country_chars i.country
    exact ⟨x, y, e, isUpper_iff.mp hx, isUpper_iff.mp hy⟩

/-- Texts for the fields, within their limits, are those of an identity. -/
theorem exists_identity {given : Field → Option String}
    (lengths : ∀ f text, given f = some text →
      1 ≤ text.length ∧ text.length ≤ if f.type = Name.organization then 128 else 64)
    (code : ∀ text, given .country = some text → isCountryCode text = true)
    (organization : (given .organization).isSome) (locality : (given .locality).isSome)
    (country : (given .country).isSome) : ∃ i : Identity, ∀ f, i.get? f = given f := by
  have label : ∀ f : Field, f.type ≠ Name.organization →
      ∃ l : Option (Label 64), l.map (·.val) = given f := by
    intro f other
    cases text : given f with
    | none => exact ⟨none, rfl⟩
    | some text' =>
      have limits := lengths f text' text
      rw [if_neg other] at limits
      exact ⟨some ⟨text', limits⟩, rfl⟩
  obtain ⟨cn, hcn⟩ := label .commonName (by decide)
  obtain ⟨ou, hou⟩ := label .organizationUnit (by decide)
  obtain ⟨st, hst⟩ := label .state (by decide)
  obtain ⟨o, ho⟩ := Option.isSome_iff_exists.mp organization
  obtain ⟨l, hl⟩ := Option.isSome_iff_exists.mp locality
  obtain ⟨c, hc⟩ := Option.isSome_iff_exists.mp country
  refine ⟨⟨cn, ou, ⟨o, lengths _ o ho⟩, ⟨l, lengths _ l hl⟩, st, ⟨c, code c hc⟩⟩, fun f => ?_⟩
  cases f with
  | commonName => exact hcn
  | organizationUnit => exact hou
  | organization => exact ho.symm
  | locality => exact hl.symm
  | state => exact hst
  | country => exact hc.symm

namespace Acceptable

variable {as : List Name.Attribute}

theorem known (h : Acceptable as) : ∀ a ∈ as, (Field.ofType? a.type).isSome := by
  intro a ha
  obtain ⟨f, type⟩ := h.supported a ha
  rw [← type, Field.ofType?_type]
  rfl

theorem nodup_fields (h : Acceptable as) : ((fieldsOf as).map (·.1)).Nodup := by
  have types : ((fieldsOf as).map (·.1)).map Field.type = as.map (·.type) := by
    conv_rhs => rw [← map_fieldsOf h.known]
    rw [List.map_map, List.map_map]
    rfl
  have once := h.once
  rw [← types] at once
  exact once.of_map _

/-- Acceptable attributes are those of an identity that has a text. -/
theorem exists_perm (h : Acceptable as) : ∃ i : Identity, i.Renderable ∧ as.Perm i.attributes := by
  have lookup : ∀ f text, (fieldsOf as).lookup f = some text ↔ ⟨f.type, text⟩ ∈ as := fun f text =>
    (lookup_eq_some_iff_mem h.nodup_fields).trans mem_fieldsOf
  have there : ∀ f : Field, (∃ a ∈ as, a.type = f.type) → ((fieldsOf as).lookup f).isSome := by
    rintro f ⟨⟨type, text⟩, member, rfl⟩
    exact Option.isSome_iff_exists.mpr ⟨text, (lookup f text).mpr member⟩
  have code : ∀ text, (fieldsOf as).lookup .country = some text → isCountryCode text = true := by
    intro text held
    obtain ⟨x, y, e, hx, hy⟩ := h.code _ ((lookup _ text).mp held) rfl
    dsimp only at e
    unfold isCountryCode
    rw [e]
    exact Bool.and_eq_true_iff.mpr ⟨isUpper_iff.mpr hx, isUpper_iff.mpr hy⟩
  obtain ⟨i, fields⟩ := exists_identity (fun f text held => h.lengths _ ((lookup f text).mp held))
    code (there .organization h.organization) (there .locality h.locality)
    (there .country h.country)
  have perm := (held_perm h.nodup_fields fields).map fun entry : Field × String =>
    (⟨entry.1.type, entry.2⟩ : Name.Attribute)
  rw [map_fieldsOf h.known, ← attributes_eq_map_held] at perm
  refine ⟨i, (renderable_iff i).mpr ?_, perm⟩
  rintro ⟨name, common, large⟩
  have held : i.get? .commonName = some name.val := by rw [get?, common]; rfl
  have member := perm.mem_iff.mpr (mem_attributes_iff.mpr held)
  exact absurd (h.bytes _ member rfl) (Nat.not_le_of_lt large)

theorem of_perm {bs : List Name.Attribute} (h : Acceptable bs) (perm : as.Perm bs) :
    Acceptable as where
  supported a ha := h.supported a (perm.mem_iff.mp ha)
  once := (perm.map _).nodup_iff.mpr h.once
  organization := by simpa only [perm.mem_iff] using h.organization
  locality := by simpa only [perm.mem_iff] using h.locality
  country := by simpa only [perm.mem_iff] using h.country
  lengths a ha := h.lengths a (perm.mem_iff.mp ha)
  bytes a ha := h.bytes a (perm.mem_iff.mp ha)
  code a ha := h.code a (perm.mem_iff.mp ha)

end Acceptable

/-! ## Acceptance -/

/-- **A text makes an identity if and only if it spells a name with acceptable attributes. The
fields are then the values of that name, and the identity has a text. Other texts are refused.** -/
theorem parse_accepts (t : String) :
    ((∃ i, parse t = .ok i) ↔
        ∃ groups, Spells groups (normalized t) ∧ Acceptable groups.flatten) ∧
      (∀ i, parse t = .ok i → i.Renderable ∧
        ∀ groups, Spells groups (normalized t) →
          ∀ (f : Field) text, i.get? f = some text ↔ ⟨f.type, text⟩ ∈ groups.flatten) ∧
      ((∀ groups, Spells groups (normalized t) → ¬ Acceptable groups.flatten) →
        ∃ e, parse t = .error e) := by
  have accepted : (∃ i, parse t = .ok i) ↔
      ∃ groups, Spells groups (normalized t) ∧ Acceptable groups.flatten := by
    constructor
    · rintro ⟨i, h⟩
      obtain ⟨renderable, groups, spelled, perm⟩ := parse_eq_ok_iff.mp h
      exact ⟨groups, spelled, (acceptable_attributes renderable).of_perm perm⟩
    · rintro ⟨groups, spelled, acceptable⟩
      obtain ⟨i, renderable, perm⟩ := acceptable.exists_perm
      exact ⟨i, parse_eq_ok_iff.mpr ⟨renderable, groups, spelled, perm⟩⟩
  refine ⟨accepted, fun i h => ?_, fun unspelled => ?_⟩
  · obtain ⟨renderable, groups, spelled, perm⟩ := parse_eq_ok_iff.mp h
    refine ⟨renderable, fun groups' spelled' f text => ?_⟩
    rw [spelled'.unique spelled, perm.mem_iff, mem_attributes_iff]
  · cases outcome : parse t with
    | error e => exact ⟨e, rfl⟩
    | ok i =>
      obtain ⟨groups, spelled, acceptable⟩ := accepted.mp ⟨i, outcome⟩
      exact absurd acceptable (unspelled groups spelled)

/-- Two attributes in one group, a value by its digits, one with a digit pair in it, a type by its
arcs. -/
example : parse " O=#416e646573+L=L\\69ma, 2.5.4.6=PE\t" =
    .ok ⟨none, none, ⟨"Andes", by decide⟩, ⟨"Lima", by decide⟩, none, ⟨"PE", by decide⟩⟩ := by
  decide +kernel

end NotaryNetwork.Identity
