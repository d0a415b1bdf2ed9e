import Mathlib.Data.List.Induction
import NotaryNetwork.Proofs.Identity.Parsing
import NotaryNetwork.Proofs.Name.Units

/-!
# Attributes in any order

The attributes of an identity, in any order and with any blanks behind the commas, spell the
identity again, unless the value that comes last ends in a blank (`parse_reordered_iff`). Trimming
the text takes such a blank away although it belongs to the value. An escaped space leaves its
backslash behind, and no name ends so (`parse_cut`); any other blank leaves a shorter value
(`parse_shortened_iff`).
-/

namespace NotaryNetwork

open Text (isBlank)

namespace Name

/-! ## The end of a value -/

/-- The last character of a text is a blank. -/
def EndsBlank (text : String) : Prop := ∃ c, text.toList.getLast? = some c ∧ isBlank c = true

theorem endsBlank_of_append {text : String} {front blanks : List Char}
    (whole : text.toList = front ++ blanks) (some_blank : blanks ≠ [])
    (blank : ∀ c ∈ blanks, isBlank c = true) : EndsBlank text := by
  obtain ⟨init, c, e⟩ := (List.eq_nil_or_concat blanks).resolve_left some_blank
  rw [List.concat_eq_append] at e
  refine ⟨c, ?_, blank c (by simp [e])⟩
  rw [whole, e, ← List.append_assoc, List.getLast?_concat]

/-- The pieces of a value are blanks that stand for themselves, behind other pieces. -/
structure Ending (value : List Char) (core : List Piece) (blanks : List Char) : Prop where
  pieces : valuePieces value = core ++ blanks.map .plain
  blank : ∀ c ∈ blanks, isBlank c = true

namespace Ending

variable {value blanks : List Char} {core : List Piece}

theorem written (h : Ending value core blanks) : ∀ p ∈ core, p.Written := by
  intro p hp
  apply valuePieces_written value
  rw [h.pieces]
  exact List.mem_append_left _ hp

theorem value_eq (h : Ending value core blanks) : value = core.map Piece.char ++ blanks := by
  have chars := map_char_valuePieces value
  have same : (blanks.map Piece.plain).map Piece.char = blanks := by
    rw [List.map_map]
    exact List.map_id blanks
  rw [h.pieces, List.map_append, same] at chars
  exact chars.symm

theorem escape_eq (h : Ending value core blanks) : escape value = spell core ++ blanks := by
  rw [escape_eq_spell, h.pieces, spell_append, spell_map_plain]

end Ending

/-- Any pieces are bare blanks behind pieces of which the last is none. -/
theorem exists_core (ps : List Piece) :
    ∃ (core : List Piece) (blanks : List Char), ps = core ++ blanks.map .plain ∧
      (∀ c ∈ blanks, isBlank c = true) ∧
        ∀ c, core.getLast? = some (.plain c) → isBlank c = false := by
  induction ps using List.reverseRecOn with
  | nil => exact ⟨[], [], rfl, by simp, by simp⟩
  | append_singleton ps p ih =>
    by_cases bare : ∃ c, p = .plain c ∧ isBlank c = true
    · obtain ⟨c, rfl, blank⟩ := bare
      obtain ⟨core, blanks, rfl, blank', dark⟩ := ih
      refine ⟨core, blanks ++ [c], by simp, ?_, dark⟩
      intro d hd
      rcases List.mem_append.mp hd with hd | hd
      · exact blank' d hd
      · rwa [List.mem_singleton.mp hd]
    · refine ⟨ps ++ [p], [], by simp, by simp, ?_⟩
      intro c last
      rw [List.getLast?_concat, Option.some.injEq] at last
      rw [Bool.eq_false_iff]
      intro blank
      exact bare ⟨c, last, blank⟩

/-- The last of some pieces, if any, stands for no blank. -/
def EndsDark (core : List Piece) : Prop :=
  ∀ p, core.getLast? = some p → isBlank p.char = false

theorem endsDark_concat {front : List Piece} {p : Piece} (dark : isBlank p.char = false) :
    EndsDark (front ++ [p]) := by
  intro q last
  rw [List.getLast?_concat, Option.some.injEq] at last
  rwa [← last]

/-- A piece that a spelling has and that stands for no blank ends with none. -/
theorem Piece.Written.exists_end {p : Piece} (h : p.Written) (dark : isBlank p.char = false) :
    ∃ front b, p.spelling = front ++ [b] ∧ isBlank b = false := by
  cases p with
  | plain c => exact ⟨[], c, rfl, dark⟩
  | special c => exact ⟨['\\'], c, rfl, dark⟩
  | octet a b =>
    obtain ⟨rfl, rfl⟩ := h
    exact ⟨['\\', '0'], '0', rfl, by decide⟩

/-- The space is the only special character that is a blank. -/
theorem eq_space_of_blank {c : Char} (known : specials.contains c = true)
    (blank : isBlank c = true) : c = ' ' := by
  simp only [specials, List.contains_cons, List.contains_nil, Bool.or_false, Bool.or_eq_true,
    beq_iff_eq] at known
  rcases known with rfl | rfl | rfl | rfl | rfl | rfl | rfl | rfl | rfl | rfl
  case inr.inl => rfl
  all_goals exact absurd blank (by decide)

/-- Before the blanks that stand for themselves at the end of a value is a character that is no
blank, or an escaped space. -/
theorem exists_ending (value : List Char) :
    ∃ core blanks, Ending value core blanks ∧
      (EndsDark core ∨ ∃ front, core = front ++ [.special ' ']) := by
  obtain ⟨core, blanks, pieces, blank, dark⟩ := exists_core (valuePieces value)
  have ending : Ending value core blanks := ⟨pieces, blank⟩
  refine ⟨core, blanks, ending, ?_⟩
  rcases List.eq_nil_or_concat core with rfl | ⟨front, p, rfl⟩
  · left
    intro p last
    cases last
  · rw [List.concat_eq_append] at dark ending ⊢
    have written := ending.written p (by simp)
    cases p with
    | plain c => exact .inl (endsDark_concat (dark c List.getLast?_concat))
    | special c =>
      cases known : isBlank c with
      | true =>
        rw [eq_space_of_blank written known]
        exact .inr ⟨front, rfl⟩
      | false => exact .inl (endsDark_concat known)
    | octet a b =>
      have null : isBlank '\x00' = false := by decide
      exact .inl (endsDark_concat null)

/-- The text up to the end of pieces, of which the last stands for no blank. -/
theorem exists_end (label : List Char) {core : List Piece} (written : ∀ p ∈ core, p.Written)
    (dark : EndsDark core) :
    ∃ front b, label ++ '=' :: spell core = front ++ [b] ∧ isBlank b = false := by
  rcases List.eq_nil_or_concat core with rfl | ⟨front, p, rfl⟩
  · exact ⟨label, '=', rfl, by decide⟩
  · rw [List.concat_eq_append] at *
    have there := written p (by simp)
    obtain ⟨before, b, e, last⟩ := there.exists_end (dark p List.getLast?_concat)
    have alone : spell [p] = p.spelling := List.append_nil _
    refine ⟨label ++ '=' :: (spell front ++ before), b, ?_, last⟩
    rw [spell_append, alone, e]
    simp

theorem sealed_label {type : Oid} (known : HasShortName type) {core : List Piece}
    (written : ∀ p ∈ core, p.Written) : Sealed ((typeLabel type).toList ++ '=' :: spell core) := by
  have equals : Sealed ['='] := Sealed.single (by decide) (by decide)
  have value := Sealed.flatMap fun p hp => (written p hp).sealed
  exact known.sealed.append (equals.append value)

/-- The pieces before the blanks at the end of a value spell the value without them. -/
theorem attributeText_core {type : Oid} (known : HasShortName type) {value blanks : List Char}
    {core : List Piece} (ending : Ending value core blanks) (dark : EndsDark core) {short : String}
    (chars : short.toList = core.map Piece.char) :
    AttributeText ⟨type, short⟩ ((typeLabel type).toList ++ '=' :: spell core) := by
  have first : ∀ c, c = '#' ∨ c = ' ' → core.head? ≠ some (.plain c) := by
    intro c edge start
    obtain ⟨ps, rfl⟩ := List.head?_eq_some_iff.mp start
    apply head?_valuePieces value edge
    rw [ending.pieces]
    rfl
  have stands := stands_map_char ending.written
  rw [← chars] at stands
  refine .intro (.short known) (.pieces ?_ stands ?_ ?_ ?_)
  · intro p hp
    exact (ending.written p hp).admitted
  · exact first ' ' (.inr rfl)
  · exact first '#' (.inl rfl)
  · intro last
    exact absurd (dark _ last) (by decide)

end Name

namespace Identity

open Name (Attribute EndsBlank Piece Spells leading spell)

variable {i : Identity} {before : List (Attribute × List Char)} {last : Attribute} {t : String}

theorem known_of_perm (order : (before.map (·.1) ++ [last]).Perm i.attributes) :
    (∀ a ∈ before.map (·.1), Name.HasShortName a.type) ∧ Name.HasShortName last.type := by
  have known : ∀ a ∈ before.map (·.1) ++ [last], Name.HasShortName a.type := by
    intro a ha
    exact hasShortName_of_mem (order.mem_iff.mp ha)
  constructor
  · intro a ha
    exact known a (List.mem_append_left _ ha)
  · apply known
    simp

theorem parse_iff_perm (renderable : i.Renderable) {groups : List (List Attribute)}
    (spelled : Name.NameText groups (normalized t)) :
    parse t = .ok i ↔ groups.flatten.Perm i.attributes := by
  rw [parse_eq_ok_iff]
  constructor
  · rintro ⟨-, groups', spelled', perm⟩
    rwa [Spells.unique spelled' (.inr spelled)] at perm
  · intro perm
    exact ⟨renderable, groups, .inr spelled, perm⟩

section text

variable (order : (before.map (·.1) ++ [last]).Perm i.attributes)
  (gaps : ∀ p ∈ before, ∀ c ∈ p.2, isBlank c = true)
  (text : t.toList = leading (before.map fun p => (p.1.spelling, p.2)) ++ last.spelling)
  {core : List Piece} {blanks : List Char}

include order gaps text

/-- Without the blanks at its end the text spells the attributes with a shorter last value, so it
makes the identity if and only if there are none. -/
theorem parse_shortened_iff (renderable : i.Renderable)
    (ending : Name.Ending last.value.toList core blanks) (dark : Name.EndsDark core) :
    parse t = .ok i ↔ blanks = [] := by
  obtain ⟨known, type⟩ := known_of_perm order
  obtain ⟨front, b, ends, dark_end⟩ :=
    Name.exists_end (Name.typeLabel last.type).toList ending.written dark
  have sealed := Name.sealed_label type ending.written
  have source : t.toList = leading (before.map fun p => (p.1.spelling, p.2)) ++
      ((Name.typeLabel last.type).toList ++ '=' :: spell core) ++ blanks := by
    rw [text, Attribute.spelling, ending.escape_eq]
    simp
  have bare : normalized t = leading ((before.map (·.1)).map fun a => (a.spelling, [])) ++
      ((Name.typeLabel last.type).toList ++ '=' :: spell core) := by
    rw [normalized_leading source known gaps (type.startsDark _) ends dark_end ending.blank,
      sealed.scan]
  obtain ⟨short, chars⟩ : ∃ s : String, s.toList = core.map Piece.char :=
    ⟨_, String.toList_ofList⟩
  have whole := ending.value_eq
  rw [← chars] at whole
  have spelled :=
    Name.nameText_leading known (Name.attributeText_core type ending dark chars)
  rw [← bare] at spelled
  rw [parse_iff_perm renderable spelled, ← List.flatMap_def, List.flatMap_singleton']
  constructor
  · intro perm
    have same := (List.perm_append_left_iff _).mp (perm.trans order.symm)
    rw [List.singleton_perm_singleton] at same
    rw [← same] at whole
    exact List.self_eq_append_right.mp whole
  · rintro rfl
    rw [List.append_nil] at whole
    rwa [← String.toList_injective whole]

/-- Without its space the unit at the end of the text is none. -/
theorem parse_cut (ending : Name.Ending last.value.toList (core ++ [.special ' ']) blanks) :
    parse t ≠ .ok i := by
  obtain ⟨known, type⟩ := known_of_perm order
  have written : ∀ p ∈ core, p.Written := by
    intro p hp
    exact ending.written p (List.mem_append_left _ hp)
  have sealed := Name.sealed_label type written
  have source : t.toList = leading (before.map fun p => (p.1.spelling, p.2)) ++
      ((Name.typeLabel last.type).toList ++ '=' :: spell core ++ ['\\']) ++ (' ' :: blanks) := by
    rw [text, Attribute.spelling, ending.escape_eq, Name.spell_append]
    simp [spell, Piece.spelling]
  have trimmed : ∀ c ∈ ' ' :: blanks, isBlank c = true :=
    List.forall_mem_cons.mpr ⟨by decide, ending.blank⟩
  have dark : Name.StartsDark
      ((Name.typeLabel last.type).toList ++ '=' :: spell core ++ ['\\']) := by
    rw [List.append_assoc]
    exact type.startsDark _
  have bare := normalized_leading source known gaps dark rfl Name.not_isBlank_backslash trimmed
  have copied : Name.scan ((Name.typeLabel last.type).toList ++ '=' :: spell core ++ ['\\']) =
      (Name.typeLabel last.type).toList ++ '=' :: spell core ++ ['\\'] := sealed ['\\']
  rw [copied, ← List.append_assoc] at bare
  have front : Name.Whole (leading ((before.map (·.1)).map fun a => (a.spelling, [])) ++
      ((Name.typeLabel last.type).toList ++ '=' :: spell core)) := by
    have equals : Name.Whole ['='] := rfl
    have label := (Name.TypeText.short type).whole
    have value := Name.whole_spell fun p hp => (written p hp).admitted
    exact (Name.whole_leading known).append (label.append (equals.append value))
  intro parsed
  obtain ⟨-, groups, spelled, -⟩ := parse_eq_ok_iff.mp parsed
  rw [bare] at spelled
  rcases spelled with ⟨-, empty⟩ | spelled
  · simp at empty
  · exact front.not_append spelled.whole

end text

/-- **The attributes of an identity, in any order and with any blanks behind the commas, spell the
identity if and only if the value that comes last does not end in a blank.** -/
theorem parse_reordered_iff (renderable : i.Renderable)
    (order : (before.map (·.1) ++ [last]).Perm i.attributes)
    (gaps : ∀ p ∈ before, ∀ c ∈ p.2, isBlank c = true)
    (text : t.toList = leading (before.map fun p => (p.1.spelling, p.2)) ++ last.spelling) :
    parse t = .ok i ↔ ¬ EndsBlank last.value := by
  obtain ⟨core, blanks, ending, dark | ⟨front, rfl⟩⟩ := Name.exists_ending last.value.toList
  · have whole := ending.value_eq
    rw [parse_shortened_iff order gaps text renderable ending dark]
    constructor
    · rintro rfl ⟨c, ends, blank⟩
      rw [whole, List.append_nil, List.getLast?_map] at ends
      obtain ⟨p, hp, rfl⟩ := Option.map_eq_some_iff.mp ends
      rw [dark p hp] at blank
      cases blank
    · intro dark
      by_contra some_blank
      exact dark (Name.endsBlank_of_append whole some_blank ending.blank)
  · have refused := parse_cut order gaps text ending
    have whole := ending.value_eq
    rw [List.map_append, List.append_assoc] at whole
    have ends : EndsBlank last.value := by
      apply Name.endsBlank_of_append whole (List.cons_ne_nil _ _)
      exact List.forall_mem_cons.mpr ⟨by decide, ending.blank⟩
    constructor
    · intro parsed
      exact absurd parsed refused
    · intro dark
      exact absurd ends dark

/-- An identity with a value that ends in a space. -/
def milano : Identity :=
  ⟨none, none, ⟨"Banca", by decide⟩, ⟨"Milano ", by decide⟩, none, ⟨"IT", by decide⟩⟩

/-- Two of its attributes, with blanks to stand behind their commas, and the third. -/
def milanoOrder : List (Attribute × List Char) × Attribute :=
  ([(⟨Name.country, "IT"⟩, ['\t', '\n']), (⟨Name.locality, "Milano "⟩, [])],
    ⟨Name.organization, "Banca"⟩)

theorem parse_reordered_iff_milano :
    milano.Renderable ∧
      (milanoOrder.1.map (·.1) ++ [milanoOrder.2]).Perm milano.attributes ∧
      (∀ p ∈ milanoOrder.1, ∀ c ∈ p.2, isBlank c = true) ∧
      "C=IT,\t\nL=Milano\\ ,O=Banca".toList =
        leading (milanoOrder.1.map fun p => (p.1.spelling, p.2)) ++ milanoOrder.2.spelling ∧
      (parse "C=IT,\t\nL=Milano\\ ,O=Banca" = .ok milano ↔ ¬ EndsBlank "Banca") := by
  have renderable : milano.Renderable := ⟨_, rfl⟩
  have order : (milanoOrder.1.map (·.1) ++ [milanoOrder.2]).Perm milano.attributes := by decide
  have gaps : ∀ p ∈ milanoOrder.1, ∀ c ∈ p.2, isBlank c = true := by
    intro p hp c hc
    rcases List.mem_cons.mp hp with rfl | hp
    · rcases List.mem_cons.mp hc with rfl | hc
      · rfl
      · rw [List.mem_singleton.mp hc]
        rfl
    · rw [List.mem_singleton.mp hp] at hc
      cases hc
  exact ⟨renderable, order, gaps, rfl, parse_reordered_iff renderable order gaps rfl⟩

/-- The space is trimmed, its backslash is left, and the text is refused. -/
theorem not_parse_reordered_milano :
    milano.Renderable ∧
      ([⟨Name.country, "IT"⟩, ⟨Name.organization, "Banca"⟩, ⟨Name.locality, "Milano "⟩] :
        List Attribute).Perm milano.attributes ∧
      "C=IT, O=Banca, L=Milano\\ ".toList =
        leading [((⟨Name.country, "IT"⟩ : Attribute).spelling, [' ']),
          ((⟨Name.organization, "Banca"⟩ : Attribute).spelling, [' '])] ++
          (⟨Name.locality, "Milano "⟩ : Attribute).spelling ∧
      parse "C=IT, O=Banca, L=Milano\\ " ≠ .ok milano :=
  ⟨⟨_, rfl⟩, by decide, rfl, by decide +kernel⟩

end Identity

end NotaryNetwork
