import NotaryNetwork.Identity.Parser
import NotaryNetwork.Proofs.Identity.Rendering
import NotaryNetwork.Proofs.Table

/-!
# Identities are read back from their texts

The text of an identity has no blank at its ends and one after each of its separators, so the text
that the grammar is applied to has the same spellings with bare commas between them
(`normalized_leading`), and the grammar gives back the attributes. The fields are then collected in
the order of the groups from last to first. That order does not matter, since the fields of an
identity are held once (`parse_of_read`).
-/

namespace NotaryNetwork.Identity

open Name (HasShortName StartsDark Sealed leading)

/-! ## The text that the grammar is applied to -/

theorem trim_append {cs front blanks : List Char} {b : Char} (dark : StartsDark cs)
    (ends : cs = front ++ [b]) (last : Text.isBlank b = false)
    (blank : ∀ c ∈ blanks, Text.isBlank c = true) :
    Text.trim Text.isBlank (cs ++ blanks) = cs := by
  obtain ⟨c, rest, start, first⟩ := dark
  have left : (cs ++ blanks).dropWhile Text.isBlank = cs ++ blanks := by
    rw [start, List.cons_append, List.dropWhile_cons_of_neg (by simp [first])]
  have right : (cs ++ blanks).reverse.dropWhile Text.isBlank = cs.reverse := by
    rw [List.reverse_append, List.dropWhile_append_of_pos (by simpa using blank), ends,
      List.reverse_append, List.reverse_singleton, List.singleton_append,
      List.dropWhile_cons_of_neg (by simp [last])]
  rw [Text.trim, left, right, List.reverse_reverse]

/-- The text that the grammar is applied to has neither the blanks behind the last attribute nor
those behind the commas. -/
theorem normalized_leading {t : String} {before : List (Name.Attribute × List Char)}
    {text front blanks : List Char} {b : Char}
    (source : t.toList = leading (before.map fun p => (p.1.spelling, p.2)) ++ text ++ blanks)
    (known : ∀ a ∈ before.map (·.1), HasShortName a.type)
    (gaps : ∀ p ∈ before, ∀ c ∈ p.2, Text.isBlank c = true) (dark : StartsDark text)
    (ends : text = front ++ [b]) (last : Text.isBlank b = false)
    (blank : ∀ c ∈ blanks, Text.isBlank c = true) :
    normalized t =
      leading ((before.map (·.1)).map fun a => (a.spelling, [])) ++ Name.scan text := by
  have closed : ∀ part ∈ before.map fun p => (p.1.spelling, p.2),
      Sealed part.1 ∧ StartsDark part.1 := by
    intro part hp
    obtain ⟨p, member, rfl⟩ := List.mem_map.mp hp
    have type := known p.1 (List.mem_map_of_mem member)
    exact ⟨Name.Attribute.sealed_spelling type, Name.Attribute.startsDark_spelling type⟩
  have whole := Name.startsDark_leading (fun part hp => (closed part hp).2) dark
  have ends' : leading (before.map fun p => (p.1.spelling, p.2)) ++ text =
      (leading (before.map fun p => (p.1.spelling, p.2)) ++ front) ++ [b] := by
    rw [ends, List.append_assoc]
  unfold normalized
  rw [source, trim_append whole ends' last blank, Name.squeeze_eq_scan,
    Name.scan_leading _ closed dark, List.map_map, List.map_map]
  · rfl
  · intro part hp
    obtain ⟨p, member, rfl⟩ := List.mem_map.mp hp
    exact gaps p member

theorem read_normalized {i : Identity} {t : String} (h : i.render = .ok t) :
    Name.read (normalized t) = .ok (i.attributes.map fun a => [a]) := by
  obtain ⟨before, attributes, text⟩ := text_eq_leading h
  obtain ⟨front, b, ends, dark⟩ := spelling_country i.country
  have fits := (render_eq_ok_iff.mp h).1
  have known : ∀ a ∈ i.attributes, HasShortName a.type ∧ a.Fits := fun a ha =>
    ⟨hasShortName_of_mem ha, fits a ha⟩
  have type := Field.country.hasShortName
  rw [attributes] at known ⊢
  have source : t.toList = leading ((before.map fun a => (a, [' '])).map fun p =>
      (p.1.spelling, p.2)) ++ (⟨Field.country.type, i.country.val⟩ : Name.Attribute).spelling ++
        [] := by
    rw [text, List.map_map, List.append_nil]
    rfl
  have same : (before.map fun a => (a, [' '])).map (·.1) = before := by
    rw [List.map_map]
    exact List.map_id before
  have bare := normalized_leading source ?_ ?_ (Name.Attribute.startsDark_spelling type) ends dark
    (by simp)
  · rw [bare, same, (Name.Attribute.sealed_spelling type).scan]
    exact Name.read_leading known
  · intro a ha
    rw [same] at ha
    exact (known a (List.mem_append_left _ ha)).1
  · intro p hp
    obtain ⟨a, -, rfl⟩ := List.mem_map.mp hp
    intro space hs
    rw [List.mem_singleton.mp hs]
    rfl

/-! ## Fields from attributes -/

/-- The fields that attributes hold, with their texts. -/
def fieldsOf (as : List Name.Attribute) : List (Field × String) :=
  as.filterMap fun a => (Field.ofType? a.type).map (·, a.value)

theorem fieldsOf_attributes (i : Identity) : fieldsOf i.attributes = i.held := by
  have hold : ((fun a : Name.Attribute => (Field.ofType? a.type).map (·, a.value)) ∘
      fun entry : Field × String => ⟨entry.1.type, entry.2⟩) = some := by
    funext entry
    simp [Field.ofType?_type]
  unfold fieldsOf
  rw [attributes_eq_map_held, List.filterMap_map, hold, List.filterMap_some]

theorem fieldsOf_cons {a : Name.Attribute} {as : List Name.Attribute} {field : Field}
    (type : Field.ofType? a.type = some field) :
    fieldsOf (a :: as) = (field, a.value) :: fieldsOf as := by
  simp [fieldsOf, type]

/-- Collecting succeeds on attributes that hold fields, each field once. -/
theorem collect_eq_ok (text : String) {as : List Name.Attribute} {found : List (Field × String)}
    (known : ∀ a ∈ as, (Field.ofType? a.type).isSome)
    (once : ((found ++ fieldsOf as).map (·.1)).Nodup) :
    collect text found as = .ok (found ++ fieldsOf as) := by
  induction as generalizing found with
  | nil => simp [collect, fieldsOf]
  | cons a as ih =>
    obtain ⟨field, type⟩ := Option.isSome_iff_exists.mp (known a List.mem_cons_self)
    rw [fieldsOf_cons type] at once ⊢
    have new : found.any (·.1 = field) = false := by
      rw [List.any_eq_false]
      intro entry member same
      rw [List.map_append, List.map_cons] at once
      have apart := (List.nodup_append.mp once).2.2 entry.1 (List.mem_map_of_mem member)
      exact apart field List.mem_cons_self (of_decide_eq_true same)
    rw [List.append_cons] at once ⊢
    rw [collect, type]
    simp only [new, Bool.false_eq_true, if_false]
    exact ih (fun b hb => known b (List.mem_cons_of_mem a hb)) once

theorem checkLabel_eq_ok {most : Nat} (text : Label most) :
    Record.checkLabel most text.val = .ok text := by
  obtain ⟨s, least, greatest⟩ := text
  rw [Record.checkLabel, dif_pos least, dif_pos greatest]

theorem readCountry_eq_ok (code : CountryCode) : readCountry (.text code.val) = .ok code := by
  obtain ⟨s, admitted⟩ := code
  rw [readCountry_text, dif_pos admitted]

theorem optional_eq_ok {most : Nat} (name : String) (text : Option (Label most)) :
    Record.optional name (Record.readLabel most) ((text.map (·.val)).map Json.Value.text) =
      .ok text := by
  cases text with
  | none => rfl
  | some text =>
    simp only [Option.map_some, Record.optional, Record.readLabel_text, checkLabel_eq_ok]
    rfl

theorem required_eq_ok {most : Nat} (name : String) (text : Label most) :
    Record.required name (Record.readLabel most) (some (.text text.val)) = .ok text := by
  simp only [Record.required, Record.readLabel_text, checkLabel_eq_ok]
  rfl

/-- With all fields but the common name from an identity, the common name alone is checked. -/
theorem ofFields_of_others {i : Identity} {given : Field → Option Json.Value}
    (h : ∀ f, f ≠ .commonName → given f = (i.get? f).map Json.Value.text) :
    ofFields given =
      (Record.optional (Field.key .commonName) (Record.readLabel 64) (given .commonName)).map
        fun name => { i with commonName := name } := by
  have country : Record.required (Field.key .country) readCountry (some (.text i.country.val)) =
      .ok i.country := by
    simp only [Record.required, readCountry_eq_ok]
    rfl
  unfold ofFields
  rw [h .organizationUnit nofun, h .organization nofun, h .locality nofun, h .state nofun,
    h .country nofun]
  simp only [get?, optional_eq_ok, Option.map_some, required_eq_ok, country]
  cases Record.optional (Field.key .commonName) (Record.readLabel 64) (given .commonName) <;> rfl

/-- The fields of an identity make it. -/
theorem ofFields_get? (i : Identity) :
    ofFields (fun field => (i.get? field).map Json.Value.text) = .ok i := by
  rw [ofFields_of_others fun f _ => rfl, get?, optional_eq_ok]
  rfl

/-- A text whose attributes are those of an identity, in any order, spells that identity. -/
theorem parse_of_read {i : Identity} {t : String} {groups : List (List Name.Attribute)}
    (h : Name.read (normalized t) = .ok groups)
    (same : groups.reverse.flatten.Perm i.attributes) : parse t = .ok i := by
  have perm : (fieldsOf groups.reverse.flatten).Perm i.held := by
    rw [← fieldsOf_attributes]
    exact same.filterMap _
  have known : ∀ a ∈ groups.reverse.flatten, (Field.ofType? a.type).isSome := by
    intro a ha
    obtain ⟨f, text, -, rfl⟩ := mem_attributes (same.mem_iff.mp ha)
    rw [Field.ofType?_type]
    rfl
  have once : (([] ++ fieldsOf groups.reverse.flatten).map Prod.fst).Nodup :=
    (perm.map _).nodup_iff.mpr i.nodup_fields_held
  have collected := collect_eq_ok t known once
  have lookup : ∀ f, (fieldsOf groups.reverse.flatten).lookup f = i.get? f := by
    intro f
    rw [lookup_eq_of_perm i.nodup_fields_held perm]
    refine Option.ext fun text => ?_
    rw [lookup_eq_some_iff_mem i.nodup_fields_held, mem_held]
  unfold parse
  simp only [h, collected, List.nil_append, lookup, ofFields_get?, bind, Except.bind, mapError_ok]

/-! ## Round trip -/

/-- **The text of an identity spells it, and no other identity has the same text.** -/
theorem parse_render {i : Identity} {t : String} (h : i.render = .ok t) :
    parse t = .ok i ∧ ∀ j : Identity, j.render = .ok t → j = i := by
  have back : ∀ {j : Identity}, j.render = .ok t → parse t = .ok j := by
    intro j hj
    refine parse_of_read (read_normalized hj) ?_
    rw [← List.map_reverse, ← List.flatMap_def, List.flatMap_singleton']
    exact List.reverse_perm _
  refine ⟨back h, fun j hj => ?_⟩
  exact Except.ok.inj ((back hj).symm.trans (back h))

/-- An identity of which every value needs care: spaces at both ends, a number sign, a separator, a
backslash and a null character. -/
def awkward : Identity :=
  ⟨some ⟨" #a,\\\x00 ", by decide⟩, none, ⟨"R3, ", by decide⟩, ⟨"\\", by decide⟩, none,
    ⟨"GB", by decide⟩⟩

theorem parse_render_awkward :
    awkward.render = .ok "CN=\\ #a\\,\\\\\\00\\ , O=R3\\,\\ , L=\\\\, C=GB" ∧
      parse "CN=\\ #a\\,\\\\\\00\\ , O=R3\\,\\ , L=\\\\, C=GB" = .ok awkward ∧
      ∀ j : Identity,
        j.render = .ok "CN=\\ #a\\,\\\\\\00\\ , O=R3\\,\\ , L=\\\\, C=GB" → j = awkward :=
  ⟨rfl, parse_render rfl⟩

end NotaryNetwork.Identity
