import NotaryNetwork.Proofs.Name.Reading

/-!
# Whole units

A text is whole if every backslash in it has its character. All spellings are (`NameText.whole`), so
a text that ends with the backslash of a unit spells no name.
-/

namespace NotaryNetwork.Name

/-! ## Whole texts -/

/-- A text that a scan leaves outside of a unit: every backslash has its character. -/
def Whole (cs : List Char) : Prop :=
  cs.foldl (fun inside c => !inside && c == '\\') false = false

namespace Whole

theorem append {p q : List Char} (hp : Whole p) (hq : Whole q) : Whole (p ++ q) := by
  unfold Whole at hp ⊢
  rw [List.foldl_append, hp]
  exact hq

theorem of_plain {p : List Char} (back : '\\' ∉ p) : Whole p := by
  induction p with
  | nil => rfl
  | cons c cs ih =>
    rw [List.mem_cons, not_or] at back
    have single : Whole [c] := by simp [Whole, Ne.symm back.1]
    exact single.append (ih back.2)

theorem unit (c : Char) : Whole ['\\', c] := by simp [Whole]

theorem flatMap {α : Type} {f : α → List Char} {xs : List α} (h : ∀ x ∈ xs, Whole (f x)) :
    Whole (xs.flatMap f) := by
  induction xs with
  | nil => rfl
  | cons x xs ih =>
    rw [List.flatMap_cons]
    exact (h x List.mem_cons_self).append (ih fun y hy => h y (List.mem_cons_of_mem x hy))

theorem cons_iff {c : Char} (back : c ≠ '\\') {p : List Char} : Whole (c :: p) ↔ Whole p := by
  simp [Whole, beq_false_of_ne back]

theorem unit_append_iff {c : Char} {p : List Char} : Whole ('\\' :: c :: p) ↔ Whole p := by
  simp [Whole]

/-- Only a backslash that starts a unit leaves a text open. -/
theorem concat_iff {p : List Char} {c : Char} : Whole (p ++ [c]) ↔ (c = '\\' → ¬ Whole p) := by
  unfold Whole
  rw [List.foldl_append, List.foldl_cons, List.foldl_nil]
  cases p.foldl (fun inside c => !inside && c == '\\') false <;> simp

/-- A backslash behind whole units has no character. -/
theorem not_append {p : List Char} (h : Whole p) : ¬ Whole (p ++ ['\\']) :=
  fun whole => concat_iff.mp whole rfl h

end Whole

/-! ## Spellings -/

theorem Piece.Admitted.whole {p : Piece} (h : p.Admitted) : Whole p.spelling := by
  cases p with
  | plain c =>
    have free : reserved.contains c = false := h
    refine Whole.of_plain fun member => ?_
    rw [Piece.spelling, List.mem_singleton] at member
    subst member
    exact absurd free (by decide)
  | special c => exact Whole.unit c
  | octet a b =>
    obtain ⟨-, -, hb⟩ := h
    refine (Whole.unit a).append (Whole.of_plain fun member => ?_)
    rw [List.mem_singleton] at member
    subst member
    exact absurd hb (by decide)

theorem whole_spell {ps : List Piece} (h : ∀ p ∈ ps, p.Admitted) : Whole (spell ps) :=
  Whole.flatMap fun p hp => (h p hp).whole

theorem TypeText.whole {type : Oid} {text : List Char} (h : TypeText type text) : Whole text := by
  apply Whole.of_plain
  cases h with
  | short member =>
    have names : ∀ entry ∈ shortNames, '\\' ∉ entry.1.toList := by decide
    exact names _ member
  | dotted h =>
    obtain ⟨-, n, m, ns, arcs⟩ := eq_of_ofArcs? h
    obtain ⟨arcs'⟩ := type
    obtain rfl : arcs' = n :: m :: ns := arcs
    have digit : ∀ k, '\\' ∉ Text.digits k := fun k member =>
      absurd (Text.isDigit_of_mem_digits member) (by decide)
    rw [toList_dotted, List.mem_append, not_or]
    refine ⟨digit n, fun member => ?_⟩
    obtain ⟨arc, ha, member⟩ := List.mem_flatMap.mp member
    obtain ⟨k, -, rfl⟩ := List.mem_map.mp ha
    rcases List.mem_cons.mp member with point | member
    · exact absurd point (by decide)
    · exact digit k member

theorem ValueText.whole {value text : List Char} (h : ValueText value text) : Whole text := by
  cases h with
  | pieces admitted => exact whole_spell admitted
  | encoded filled bytes =>
    refine Whole.of_plain fun member => ?_
    rcases List.mem_cons.mp member with mark | member
    · exact absurd mark (by decide)
    · obtain ⟨n, value⟩ := Text.Hex.exists_value?_of_decode? bytes member
      exact absurd value (by simp [Text.Hex.value?])

theorem AttributeText.whole {a : Attribute} {text : List Char} (h : AttributeText a text) :
    Whole text := by
  obtain ⟨named, valued⟩ := h
  have equals : Whole ['='] := rfl
  exact named.whole.append (equals.append valued.whole)

/-- A name does not end in the middle of a unit. -/
theorem NameText.whole {groups : List (List Attribute)} {cs : List Char} (h : NameText groups cs) :
    Whole cs := by
  induction h with
  | single h => exact h.whole
  | plus h behind ih =>
    have plus : Whole ['+'] := rfl
    exact h.whole.append (plus.append ih)
  | comma h behind ih =>
    have comma : Whole [','] := rfl
    exact h.whole.append (comma.append ih)

theorem whole_leading {as : List Attribute} (known : ∀ a ∈ as, HasShortName a.type) :
    Whole (leading (as.map fun a => (a.spelling, []))) := by
  induction as with
  | nil => rfl
  | cons a as ih =>
    have first := attributeText_spelling (known a List.mem_cons_self)
    have behind := ih fun b hb => known b (List.mem_cons_of_mem a hb)
    have comma : Whole [','] := rfl
    exact first.whole.append (comma.append behind)

end NotaryNetwork.Name
