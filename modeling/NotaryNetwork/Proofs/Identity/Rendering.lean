import NotaryNetwork.Identity.Basic
import NotaryNetwork.Proofs.Name.Reading
import NotaryNetwork.Proofs.Outcome

/-!
# The text of an identity

An identity has a text if and only if its common name has at most 64 bytes in UTF-8
(`renderable_iff`); all other limits follow from those of the fields. The text is made of the
spellings of the attributes (`render_eq_ok_iff`); it neither starts nor ends with a blank.
-/

namespace NotaryNetwork.Identity

open Name (HasShortName leading)

/-! ## Fields that are there -/

theorem Field.mem_all (f : Field) : f ∈ Field.all := by cases f <;> decide

theorem Field.ofType?_type (f : Field) : Field.ofType? f.type = some f := by
  cases f <;> rfl

theorem Field.hasShortName (f : Field) : HasShortName f.type := by
  unfold HasShortName
  cases f <;> decide

/-- The fields that are there, with their texts. -/
def held (i : Identity) : List (Field × String) :=
  Field.all.filterMap fun field => (i.get? field).map fun text => (field, text)

theorem attributes_eq_map_held (i : Identity) :
    i.attributes = i.held.map fun entry => ⟨entry.1.type, entry.2⟩ := by
  unfold attributes held
  rw [List.map_filterMap]
  congr 1
  funext field
  rw [Option.map_map]
  rfl

theorem mem_held {i : Identity} {f : Field} {text : String} :
    (f, text) ∈ i.held ↔ i.get? f = some text := by
  unfold held
  rw [List.mem_filterMap]
  constructor
  · rintro ⟨g, -, e⟩
    obtain ⟨s, hs, e⟩ := Option.map_eq_some_iff.mp e
    cases e
    exact hs
  · intro h
    exact ⟨f, f.mem_all, by rw [h]; rfl⟩

theorem nodup_fields_held (i : Identity) : (i.held.map (·.1)).Nodup := by
  have all : Field.all.Nodup := by decide
  unfold held
  rw [List.map_filterMap]
  refine List.Pairwise.filterMap _ (fun f g apart f' hf g' hg => ?_) all
  obtain ⟨entry, he, rfl⟩ := Option.map_eq_some_iff.mp hf
  obtain ⟨entry', he', rfl⟩ := Option.map_eq_some_iff.mp hg
  obtain ⟨text, -, rfl⟩ := Option.map_eq_some_iff.mp he
  obtain ⟨text', -, rfl⟩ := Option.map_eq_some_iff.mp he'
  exact apart

theorem mem_attributes {i : Identity} {a : Name.Attribute} (h : a ∈ i.attributes) :
    ∃ f text, i.get? f = some text ∧ a = ⟨f.type, text⟩ := by
  rw [attributes_eq_map_held] at h
  obtain ⟨⟨f, text⟩, held, rfl⟩ := List.mem_map.mp h
  exact ⟨f, text, mem_held.mp held, rfl⟩

theorem hasShortName_of_mem {i : Identity} {a : Name.Attribute} (h : a ∈ i.attributes) :
    HasShortName a.type := by
  obtain ⟨f, text, -, rfl⟩ := mem_attributes h
  exact f.hasShortName

/-! ## When there is a text -/

/-- The identity has a text. -/
def Renderable (i : Identity) : Prop := ∃ t, i.render = .ok t

theorem render_eq_ok_iff {i : Identity} {t : String} :
    i.render = .ok t ↔ (∀ a ∈ i.attributes, a.Fits) ∧
      t = String.ofList ([',', ' '].intercalate (i.attributes.map Name.Attribute.spelling)) := by
  have fit : ∀ a : Name.Attribute, a.Fits →
      (Name.Attribute.make a.type a.value).map Name.Attribute.spelling = .ok a.spelling :=
    fun a h => by rw [show Name.Attribute.make a.type a.value = .ok a from h]; rfl
  unfold render spellings
  constructor
  · intro h
    cases parts : i.attributes.mapM fun a =>
        (Name.Attribute.make a.type a.value).map Name.Attribute.spelling with
    | error e => rw [parts] at h; cases h
    | ok spelled =>
      have fits : ∀ a ∈ i.attributes, a.Fits := by
        intro a ha
        obtain ⟨y, hy⟩ := ok_of_mapM parts a ha
        cases made : Name.Attribute.make a.type a.value with
        | error e => rw [made] at hy; cases hy
        | ok b => exact made.trans (congrArg Except.ok (Name.Attribute.make_eq_ok made))
      refine ⟨fits, ?_⟩
      rw [mapM_ok (g := Name.Attribute.spelling) fun a ha => fit a (fits a ha)] at h
      exact (Except.ok.inj h).symm
  · rintro ⟨fits, rfl⟩
    rw [mapM_ok (g := Name.Attribute.spelling) fun a ha => fit a (fits a ha)]
    rfl

/-- The common name has more bytes than its type admits. -/
def Oversized (i : Identity) : Prop :=
  ∃ name, i.commonName = some name ∧ 64 < Text.Utf8.size name.val.toList

theorem length_le_size (cs : List Char) : cs.length ≤ Text.Utf8.size cs := by
  induction cs with
  | nil => exact Nat.le_refl 0
  | cons c cs ih =>
    have one : 1 ≤ c.utf8Size := c.utf8Size_pos
    rw [List.length_cons, Text.Utf8.size]
    omega

theorem country_chars (c : CountryCode) :
    ∃ a b, c.val.toList = [a, b] ∧ a.isUpper = true ∧ b.isUpper = true := by
  obtain ⟨text, code⟩ := c
  unfold isCountryCode at code
  split at code
  · rename_i a b e
    obtain ⟨ha, hb⟩ := Bool.and_eq_true_iff.mp code
    exact ⟨a, b, e, ha, hb⟩
  · cases code

theorem isUpper_iff {c : Char} : c.isUpper = true ↔ 65 ≤ c.val ∧ c.val ≤ 90 :=
  decide_eq_true_iff

theorem utf8Size_of_isUpper {c : Char} (h : c.isUpper = true) : c.utf8Size = 1 := by
  have small : c.val ≤ 0x7f := UInt32.le_trans (isUpper_iff.mp h).2 (by decide)
  simp [Char.utf8Size, small]

theorem size_country (c : CountryCode) : Text.Utf8.size c.val.toList = 2 := by
  obtain ⟨a, b, e, ha, hb⟩ := country_chars c
  rw [e]
  simp [Text.Utf8.size, utf8Size_of_isUpper ha, utf8Size_of_isUpper hb]

theorem fits_of_ne {i : Identity} {f : Field} {text : String} (other : f ≠ .commonName)
    (h : i.get? f = some text) : (⟨f.type, text⟩ : Name.Attribute).Fits := by
  cases f with
  | commonName => exact absurd rfl other
  | country =>
    obtain rfl := Option.some.inj h
    unfold Name.Attribute.Fits Name.Attribute.make
    have limits : Name.sizeLimits? Field.country.type = some (2, 2) := rfl
    simp [limits, size_country]
  | organizationUnit => rfl
  | organization => rfl
  | locality => rfl
  | state => rfl

theorem fits_commonName_iff (name : Label 64) :
    (⟨Field.commonName.type, name.val⟩ : Name.Attribute).Fits ↔
      Text.Utf8.size name.val.toList ≤ 64 := by
  have some_byte : 1 ≤ Text.Utf8.size name.val.toList :=
    Nat.le_trans name.property.1 (length_le_size name.val.toList)
  have limits : Name.sizeLimits? Field.commonName.type = some (1, 64) := rfl
  unfold Name.Attribute.Fits Name.Attribute.make
  simp [limits, some_byte]

/-- **An identity has a text if and only if its common name has at most 64 bytes.** -/
theorem renderable_iff (i : Identity) : i.Renderable ↔ ¬ i.Oversized := by
  constructor
  · rintro ⟨t, h⟩ ⟨name, e, large⟩
    have there : i.get? .commonName = some name.val := by rw [get?, e]; rfl
    have member : (⟨Field.commonName.type, name.val⟩ : Name.Attribute) ∈ i.attributes := by
      rw [attributes_eq_map_held]
      exact List.mem_map.mpr ⟨(.commonName, name.val), mem_held.mpr there, rfl⟩
    have fits := (fits_commonName_iff name).mp ((render_eq_ok_iff.mp h).1 _ member)
    omega
  · intro small
    refine ⟨_, render_eq_ok_iff.mpr ⟨fun a ha => ?_, rfl⟩⟩
    obtain ⟨f, text, h, rfl⟩ := mem_attributes ha
    by_cases common : f = .commonName
    · subst common
      obtain ⟨name, e, rfl⟩ := Option.map_eq_some_iff.mp h
      refine (fits_commonName_iff name).mpr (Nat.le_of_not_lt fun large => ?_)
      exact small ⟨name, e, large⟩
    · exact fits_of_ne common h

/-! ## The ends of the text -/

theorem intercalate_eq_leading (gap : List Char) (ps : List (List Char)) (last : List Char) :
    (',' :: gap).intercalate (ps ++ [last]) = leading (ps.map fun p => (p, gap)) ++ last := by
  induction ps with
  | nil => simp [leading]
  | cons p ps ih =>
    rw [List.cons_append, List.intercalate_cons_of_ne_nil (by simp), ih, List.map_cons, leading]
    simp

/-- The country comes last. -/
theorem attributes_eq_append (i : Identity) :
    ∃ front, i.attributes = front ++ [⟨Field.country.type, i.country.val⟩] := by
  have parts : Field.all = [Field.commonName, Field.organizationUnit, Field.organization,
    Field.locality, Field.state] ++ [Field.country] := rfl
  unfold attributes
  rw [parts, List.filterMap_append]
  exact ⟨_, rfl⟩

theorem not_isBlank_of_isUpper {c : Char} (h : c.isUpper = true) : Text.isBlank c = false := by
  obtain ⟨low, high⟩ := isUpper_iff.mp h
  have low : 65 ≤ c.toNat := low
  have high : c.toNat ≤ 90 := high
  simp only [Text.isBlank, Text.isWhiteSpace, Bool.or_eq_false_iff, Bool.and_eq_false_iff,
    decide_eq_false_iff_not, beq_eq_false_iff_ne]
  omega

/-- The spelling of a country ends with a letter. -/
theorem spelling_country (c : CountryCode) :
    ∃ front b, (⟨Field.country.type, c.val⟩ : Name.Attribute).spelling = front ++ [b] ∧
      Text.isBlank b = false := by
  obtain ⟨a, b, e, -, hb⟩ := country_chars c
  have null : b ≠ '\x00' := by rintro rfl; exact absurd hb (by decide)
  obtain ⟨front, he⟩ := Name.escape_append_singleton [a] null
  refine ⟨(Name.typeLabel Field.country.type).toList ++ '=' :: front, b, ?_,
    not_isBlank_of_isUpper hb⟩
  unfold Name.Attribute.spelling
  rw [e, show [a, b] = [a] ++ [b] from rfl, he]
  simp

/-- The text of an identity: the spellings of its attributes, with a comma and a space behind each
but the last. -/
theorem text_eq_leading {i : Identity} {t : String} (h : i.render = .ok t) :
    ∃ front, i.attributes = front ++ [⟨Field.country.type, i.country.val⟩] ∧
      t.toList = leading (front.map fun a => (a.spelling, [' '])) ++
        (⟨Field.country.type, i.country.val⟩ : Name.Attribute).spelling := by
  obtain ⟨-, rfl⟩ := render_eq_ok_iff.mp h
  obtain ⟨front, e⟩ := attributes_eq_append i
  refine ⟨front, e, ?_⟩
  rw [String.toList_ofList, e, List.map_append, List.map_singleton, intercalate_eq_leading,
    List.map_map]
  rfl

theorem length_pos_of_render {i : Identity} {t : String} (h : i.render = .ok t) :
    1 ≤ t.length := by
  obtain ⟨front, -, text⟩ := text_eq_leading h
  rw [← String.length_toList, text, List.length_append, Name.Attribute.spelling,
    List.length_append, List.length_cons]
  omega

end NotaryNetwork.Identity
