import NotaryNetwork.Proofs.Name.Pieces
import NotaryNetwork.Proofs.Name.Types

/-!
# The grammar of names

A name that is not empty is spelled by its attributes, with a plus sign between those of one group
and a comma between groups (`NameText`). No text spells two names (`Spells.unique`). Reading accepts
exactly the spellings of names whose attributes have sizes that their types admit and whose groups
have no attribute twice (`read_eq_ok_iff`).
-/

namespace NotaryNetwork.Name

/-! ## Attributes -/

namespace Attribute

theorem make_eq_ok {type : Oid} {value : String} {a : Attribute}
    (h : make type value = .ok a) : a = ⟨type, value⟩ := by
  unfold make at h
  split at h
  · exact (Except.ok.inj h).symm
  · simp only at h
    split at h
    · exact (Except.ok.inj h).symm
    · cases h

/-- An attribute whose value has a size that its type admits. -/
def Fits (a : Attribute) : Prop := make a.type a.value = .ok a

end Attribute

/-- The spellings of an attribute. -/
inductive AttributeText (a : Attribute) : List Char → Prop
  | intro {type value : List Char} (named : TypeText a.type type)
      (valued : ValueText a.value.toList value) : AttributeText a (type ++ '=' :: value)

/-- An attribute is read from each of its spellings. -/
theorem readAttribute_of_text {a : Attribute} {text rest : List Char} (h : AttributeText a text)
    (fits : a.Fits) (ends : EndsValue rest) : readAttribute (text ++ rest) = .ok (a, rest) := by
  obtain ⟨named, valued⟩ := h
  rename_i type value
  have split : type ++ '=' :: value ++ rest = type ++ '=' :: (value ++ rest) := by simp
  have typed := readType_eq_ok_iff.mpr ⟨type, split, named⟩
  have made : Attribute.make a.type a.value = .ok a := fits
  unfold readAttribute
  simp only [typed, readValue_of_text valued ends, String.ofList_toList, made, bind, Except.bind,
    mapError_ok, pure, Except.pure]

/-- What is read as an attribute is one of its spellings. -/
theorem exists_attributeText {cs rest : List Char} {a : Attribute}
    (h : readAttribute cs = .ok (a, rest)) :
    ∃ text, cs = text ++ rest ∧ AttributeText a text ∧ a.Fits := by
  unfold readAttribute at h
  obtain ⟨⟨type, cs'⟩, typed, h⟩ := bind_eq_ok.mp h
  obtain ⟨⟨value, cs''⟩, read, h⟩ := bind_eq_ok.mp h
  obtain ⟨made, checked, h⟩ := bind_eq_ok.mp h
  cases h
  obtain ⟨t, rfl, named⟩ := readType_eq_ok_iff.mp typed
  obtain ⟨v, rfl, valued⟩ := exists_valueText read
  cases fits : Attribute.make type (String.ofList value) with
  | error e => rw [fits] at checked; cases checked
  | ok a' =>
    rw [fits] at checked
    cases checked
    obtain rfl := Attribute.make_eq_ok fits
    refine ⟨t ++ '=' :: v, by simp, .intro named ?_, fits⟩
    rwa [String.toList_ofList]

/-! ## Names -/

/-- The spellings of a name that is not empty, by its groups. -/
inductive NameText : List (List Attribute) → List Char → Prop
  | single {a : Attribute} {text : List Char} (h : AttributeText a text) : NameText [[a]] text
  /-- The first attribute shares its group with the second. -/
  | plus {a : Attribute} {text : List Char} {g : List Attribute} {gs : List (List Attribute)}
      {later : List Char} (h : AttributeText a text) (behind : NameText (g :: gs) later) :
      NameText ((a :: g) :: gs) (text ++ '+' :: later)
  /-- The first attribute has a group of its own. -/
  | comma {a : Attribute} {text : List Char} {gs : List (List Attribute)} {later : List Char}
      (h : AttributeText a text) (behind : NameText gs later) :
      NameText ([a] :: gs) (text ++ ',' :: later)

/-- The spellings of names; the name without attributes has the empty text. -/
def Spells (groups : List (List Attribute)) (cs : List Char) : Prop :=
  groups = [] ∧ cs = [] ∨ NameText groups cs

/-- The groups of a name are admitted. -/
structure Sound (groups : List (List Attribute)) : Prop where
  fits : ∀ a ∈ groups.flatten, a.Fits
  nodup : ∀ g ∈ groups, g.Nodup

theorem AttributeText.length_pos {a : Attribute} {text : List Char} (h : AttributeText a text) :
    1 ≤ text.length := by
  obtain ⟨named, valued⟩ := h
  rw [List.length_append, List.length_cons]
  omega

theorem NameText.length_le {groups : List (List Attribute)} {cs : List Char}
    (h : NameText groups cs) : groups.flatten.length ≤ cs.length := by
  induction h with
  | single h => exact h.length_pos
  | plus h behind ih =>
    have some_text := h.length_pos
    simp only [List.flatten_cons, List.length_append, List.length_cons] at ih ⊢
    omega
  | comma h behind ih =>
    have some_text := h.length_pos
    simp only [List.flatten_cons, List.length_append, List.length_cons, List.length_nil] at ih ⊢
    omega

theorem NameText.exists_cons {groups : List (List Attribute)} {cs : List Char}
    (h : NameText groups cs) : ∃ g gs, groups = g :: gs := by
  cases h with
  | single h => exact ⟨_, _, rfl⟩
  | plus h behind => exact ⟨_, _, rfl⟩
  | comma h behind => exact ⟨_, _, rfl⟩

theorem NameText.length_pos {groups : List (List Attribute)} {cs : List Char}
    (h : NameText groups cs) : 1 ≤ cs.length := by
  cases h with
  | single h => exact h.length_pos
  | plus h behind =>
    rw [List.length_append, List.length_cons]
    omega
  | comma h behind =>
    rw [List.length_append, List.length_cons]
    omega

namespace Sound

variable {g : List Attribute} {gs : List (List Attribute)}

theorem cons_iff : Sound (g :: gs) ↔ ((∀ a ∈ g, a.Fits) ∧ g.Nodup) ∧ Sound gs := by
  constructor
  · rintro ⟨fits, nodup⟩
    rw [List.flatten_cons, List.forall_mem_append] at fits
    rw [List.forall_mem_cons] at nodup
    exact ⟨⟨fits.1, nodup.1⟩, fits.2, nodup.2⟩
  · rintro ⟨⟨fits, nodup⟩, others⟩
    constructor
    · rw [List.flatten_cons, List.forall_mem_append]
      exact ⟨fits, others.fits⟩
    · rw [List.forall_mem_cons]
      exact ⟨nodup, others.nodup⟩

theorem nil : Sound [] := ⟨by simp, by simp⟩

end Sound

/-! ## One name for a text -/

/-- The attribute at the start of a text ends where no other does. -/
theorem AttributeText.unique {a b : Attribute} {text text' rest rest' : List Char}
    (h : AttributeText a text) (h' : AttributeText b text') (ends : EndsValue rest)
    (ends' : EndsValue rest') (same : text ++ rest = text' ++ rest') : a = b ∧ rest = rest' := by
  obtain ⟨named, valued⟩ := h
  obtain ⟨named', valued'⟩ := h'
  rename_i type value type' value'
  simp only [List.append_assoc, List.cons_append] at same
  have typed : readType (type ++ '=' :: (value ++ rest)) = .ok (a.type, value ++ rest) :=
    readType_eq_ok_iff.mpr ⟨type, rfl, named⟩
  have typed' := readType_eq_ok_iff.mpr ⟨type', same, named'⟩
  obtain ⟨types, behind⟩ := Prod.mk.inj (Except.ok.inj (typed.symm.trans typed'))
  have read := readValue_of_text valued ends
  rw [behind, readValue_of_text valued' ends'] at read
  obtain ⟨values, rests⟩ := Prod.mk.inj (Except.ok.inj read)
  refine ⟨?_, rests.symm⟩
  obtain ⟨type, value⟩ := a
  obtain ⟨type', value'⟩ := b
  rw [Attribute.mk.injEq]
  exact ⟨types, (String.toList_injective values).symm⟩

/-- A name starts with an attribute, and behind that comes the end or the rest of the name. -/
theorem NameText.exists_first {groups : List (List Attribute)} {cs : List Char}
    (h : NameText groups cs) :
    ∃ a text rest, cs = text ++ rest ∧ AttributeText a text ∧ EndsValue rest ∧
      (rest = [] ∧ groups = [[a]] ∨
        (∃ g gs later, rest = '+' :: later ∧ NameText (g :: gs) later ∧ groups = (a :: g) :: gs) ∨
          ∃ gs later, rest = ',' :: later ∧ NameText gs later ∧ groups = [a] :: gs) := by
  cases h with
  | single h => exact ⟨_, _, [], (List.append_nil _).symm, h, .nil, .inl ⟨rfl, rfl⟩⟩
  | plus h behind =>
    exact ⟨_, _, _, rfl, h, .plus _, .inr (.inl ⟨_, _, _, rfl, behind, rfl⟩)⟩
  | comma h behind => exact ⟨_, _, _, rfl, h, .comma _, .inr (.inr ⟨_, _, rfl, behind, rfl⟩)⟩

theorem NameText.unique {groups groups' : List (List Attribute)} {cs : List Char}
    (h : NameText groups cs) (h' : NameText groups' cs) : groups = groups' := by
  induction h generalizing groups' with
  | single first =>
    rename_i a text
    obtain ⟨b, text', rest', e, first', ends', onward⟩ := h'.exists_first
    rw [← List.append_nil text] at e
    obtain ⟨rfl, rfl⟩ := first.unique first' .nil ends' e
    rcases onward with ⟨-, rfl⟩ | ⟨_, _, _, clash, -⟩ | ⟨_, _, clash, -⟩
    · rfl
    · cases clash
    · cases clash
  | plus first behind ih =>
    rename_i later
    obtain ⟨b, text', rest', e, first', ends', onward⟩ := h'.exists_first
    obtain ⟨rfl, rfl⟩ := first.unique first' (.plus later) ends' e
    rcases onward with ⟨clash, -⟩ | ⟨g, gs, later, same, behind', rfl⟩ | ⟨_, _, clash, -⟩
    · cases clash
    · cases same
      obtain ⟨rfl, rfl⟩ := List.cons.inj (ih behind')
      rfl
    · cases clash
  | comma first behind ih =>
    rename_i later
    obtain ⟨b, text', rest', e, first', ends', onward⟩ := h'.exists_first
    obtain ⟨rfl, rfl⟩ := first.unique first' (.comma later) ends' e
    rcases onward with ⟨clash, -⟩ | ⟨_, _, _, clash, -⟩ | ⟨gs, later, same, behind', rfl⟩
    · cases clash
    · cases clash
    · cases same
      rw [ih behind']

/-- **No text spells two names.** -/
theorem Spells.unique {groups groups' : List (List Attribute)} {cs : List Char}
    (h : Spells groups cs) (h' : Spells groups' cs) : groups = groups' := by
  rcases h with ⟨rfl, rfl⟩ | h <;> rcases h' with ⟨rfl, empty⟩ | h'
  · rfl
  · exact absurd h'.length_pos (by simp)
  · rw [empty] at h
    exact absurd h.length_pos (by simp)
  · exact h.unique h'

/-! ## Reading names -/

/-- One attribute is read, and what stands behind it decides how reading goes on. -/
theorem readGroups_succ_eq_ok {fuel : Nat} {before : List Attribute} {cs : List Char}
    {groups : List (List Attribute)} :
    readGroups (fuel + 1) before cs = .ok groups ↔
      ∃ a rest, readAttribute cs = .ok (a, rest) ∧
        ((∃ later, rest = '+' :: later ∧ readGroups fuel (before ++ [a]) later = .ok groups) ∨
          (before ++ [a]).Nodup ∧
            (rest = [] ∧ groups = [before ++ [a]] ∨
              ∃ later gs, rest = ',' :: later ∧ readGroups fuel [] later = .ok gs ∧
                groups = (before ++ [a]) :: gs)) := by
  rw [readGroups, bind_eq_ok, Prod.exists]
  refine exists_congr fun a => exists_congr fun rest => and_congr_right fun _ => ?_
  dsimp only
  split
  · simp
  · rename_i plus
    by_cases nodup : (before ++ [a]).Nodup
    · simp only [nodup, not_true_eq_false, if_false, true_and]
      split
      · simp [pure, Except.pure, eq_comm]
      · rw [bind_eq_ok]
        simp [pure, Except.pure, eq_comm]
      · rename_i empty comma
        simp only [throw, throwThe, MonadExceptOf.throw, reduceCtorEq, false_iff, not_or]
        refine ⟨?_, ?_, ?_⟩
        · rintro ⟨later, e, -⟩
          exact plus later e
        · rintro ⟨e, -⟩
          exact empty e
        · rintro ⟨later, gs, e, -⟩
          exact comma later e
    · simp only [nodup, not_false_eq_true, if_true, false_and, or_false]
      refine ⟨nofun, ?_⟩
      rintro ⟨later, e, -⟩
      exact absurd e (plus later)

/-- Groups are read from each of their spellings, the first of them after the attributes that have
been read for it. -/
theorem readGroups_of_text {groups : List (List Attribute)} {cs : List Char}
    (h : NameText groups cs) {g : List Attribute} {gs : List (List Attribute)}
    (parts : groups = g :: gs) {before : List Attribute} (sound : Sound ((before ++ g) :: gs))
    {fuel : Nat} (enough : groups.flatten.length ≤ fuel) :
    readGroups fuel before cs = .ok ((before ++ g) :: gs) := by
  -- The induction is on the spelling; each attribute takes one unit of the bound.
  induction h generalizing g gs before fuel with
  | single h =>
    rename_i a text
    cases parts
    obtain ⟨⟨fits, nodup⟩, -⟩ := Sound.cons_iff.mp sound
    obtain ⟨fuel, rfl⟩ := Nat.exists_eq_succ_of_ne_zero (Nat.ne_of_gt enough)
    have first := readAttribute_of_text h (fits a (by simp)) .nil
    rw [List.append_nil] at first
    exact readGroups_succ_eq_ok.mpr ⟨a, [], first, .inr ⟨nodup, .inl ⟨rfl, rfl⟩⟩⟩
  | plus h behind ih =>
    rename_i a text g' gs' later
    cases parts
    have fits := (Sound.cons_iff.mp sound).1.1
    obtain ⟨fuel, rfl⟩ := Nat.exists_eq_succ_of_ne_zero (n := fuel) (by
      rintro rfl
      simp at enough)
    have first := readAttribute_of_text h (fits a (by simp)) (.plus later)
    rw [List.append_cons before a g'] at sound ⊢
    refine readGroups_succ_eq_ok.mpr ⟨a, '+' :: later, first, .inl ⟨later, rfl, ?_⟩⟩
    exact ih rfl sound (Nat.le_of_succ_le_succ enough)
  | comma h behind ih =>
    rename_i a text gs' later
    cases parts
    obtain ⟨⟨fits, nodup⟩, others⟩ := Sound.cons_iff.mp sound
    obtain ⟨fuel, rfl⟩ := Nat.exists_eq_succ_of_ne_zero (n := fuel) (by
      rintro rfl
      simp at enough)
    obtain ⟨g', gs', rfl⟩ := behind.exists_cons
    have first := readAttribute_of_text h (fits a (by simp)) (.comma later)
    have fresh : Sound (([] ++ g') :: gs') := others
    have next := ih rfl fresh (Nat.le_of_succ_le_succ enough)
    exact readGroups_succ_eq_ok.mpr
      ⟨a, ',' :: later, first, .inr ⟨nodup, .inr ⟨later, _, rfl, next, rfl⟩⟩⟩

/-- What is read as groups is one of their spellings. -/
theorem nameText_of_readGroups {fuel : Nat} {before : List Attribute} {cs : List Char}
    {groups : List (List Attribute)} (h : readGroups fuel before cs = .ok groups) :
    ∃ g gs, groups = (before ++ g) :: gs ∧ NameText (g :: gs) cs ∧ (∀ a ∈ g, a.Fits) ∧
      (before ++ g).Nodup ∧ Sound gs := by
  induction fuel generalizing before cs groups with
  | zero => cases h
  | succ fuel ih =>
    obtain ⟨a, rest, first, onward⟩ := readGroups_succ_eq_ok.mp h
    obtain ⟨text, rfl, spelled, fits⟩ := exists_attributeText first
    rcases onward with ⟨later, rfl, next⟩ | ⟨nodup, ⟨rfl, rfl⟩ | ⟨later, gs, rfl, next, rfl⟩⟩
    · obtain ⟨g, gs, rfl, behind, fit, nodup, others⟩ := ih next
      rw [← List.append_cons before a g] at nodup ⊢
      exact ⟨a :: g, gs, rfl, .plus spelled behind, List.forall_mem_cons.mpr ⟨fits, fit⟩, nodup,
        others⟩
    · rw [List.append_nil]
      exact ⟨[a], [], rfl, .single spelled, by simpa using fits, nodup, .nil⟩
    · obtain ⟨g, gs, rfl, behind, fit, nodup', others⟩ := ih next
      exact ⟨[a], g :: gs, rfl, .comma spelled behind, by simpa using fits, nodup,
        Sound.cons_iff.mpr ⟨⟨fit, nodup'⟩, others⟩⟩

/-- **A text is read as a name if and only if it is one of its spellings and its groups are
admitted.** -/
theorem read_eq_ok_iff {cs : List Char} {groups : List (List Attribute)} :
    read cs = .ok groups ↔ Spells groups cs ∧ Sound groups := by
  unfold read Spells
  split
  · constructor
    · intro h
      cases h
      exact ⟨.inl ⟨rfl, rfl⟩, .nil⟩
    · rintro ⟨⟨rfl, -⟩ | text, sound⟩
      · rfl
      · exact absurd text.length_pos (by simp)
  · rename_i some_text
    constructor
    · intro h
      obtain ⟨g, gs, rfl, text, fits, nodup, others⟩ := nameText_of_readGroups h
      exact ⟨.inr text, Sound.cons_iff.mpr ⟨⟨fits, nodup⟩, others⟩⟩
    · rintro ⟨⟨-, empty⟩ | text, sound⟩
      · exact absurd empty some_text
      · obtain ⟨g, gs, rfl⟩ := text.exists_cons
        refine readGroups_of_text text rfl ?_ (Nat.le_succ_of_le text.length_le)
        exact sound

end NotaryNetwork.Name
