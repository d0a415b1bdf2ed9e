import NotaryNetwork.Proofs.Name.Grammar
import NotaryNetwork.Proofs.Name.Value

/-!
# Names are read back

What is written for an attribute with a short name is one of its spellings
(`attributeText_spelling`), so a name of such attributes, one a group, is read back from their
spellings with commas between them (`read_leading`).
-/

namespace NotaryNetwork.Name

/-! ## Types -/

/-- A type that has a short name. -/
def HasShortName (type : Oid) : Prop := (typeLabel type, type) ∈ shortNames

/-- The first characters of short names are letters. -/
theorem HasShortName.startsDark {type : Oid} (h : HasShortName type) (rest : List Char) :
    StartsDark ((typeLabel type).toList ++ rest) := by
  unfold HasShortName at h
  generalize typeLabel type = name at h
  simp only [shortNames, List.mem_cons, List.not_mem_nil, or_false, Prod.mk.injEq] at h
  rcases h with h | h | h | h | h | h | h | h | h <;> obtain ⟨rfl, -⟩ := h <;>
    exact ⟨_, _, rfl, by decide⟩

theorem HasShortName.sealed {type : Oid} (h : HasShortName type) :
    Sealed (typeLabel type).toList := by
  unfold HasShortName at h
  generalize typeLabel type = name at h
  simp only [shortNames, List.mem_cons, List.not_mem_nil, or_false, Prod.mk.injEq] at h
  rcases h with h | h | h | h | h | h | h | h | h <;> obtain ⟨rfl, -⟩ := h <;>
    exact Sealed.of_plain (by decide) (by decide)

/-! ## Attributes -/

namespace Attribute

theorem sealed_spelling {a : Attribute} (known : HasShortName a.type) : Sealed a.spelling := by
  have equals : Sealed ['='] := Sealed.single (by decide) (by decide)
  exact known.sealed.append (equals.append (sealed_escape _))

theorem startsDark_spelling {a : Attribute} (known : HasShortName a.type) :
    StartsDark a.spelling :=
  known.startsDark _

end Attribute

/-- What is written for an attribute with a short name is one of its spellings. -/
theorem attributeText_spelling {a : Attribute} (known : HasShortName a.type) :
    AttributeText a a.spelling :=
  .intro (.short known) (valueText_escape a.value.toList)

/-! ## Names -/

/-- Attributes with a short name, one a group, are spelled with a comma behind all but the last. -/
theorem nameText_leading {as : List Attribute} (known : ∀ a ∈ as, HasShortName a.type)
    {last : Attribute} {text : List Char} (h : AttributeText last text) :
    NameText ((as ++ [last]).map fun a => [a])
      (leading (as.map fun a => (a.spelling, [])) ++ text) := by
  induction as with
  | nil => exact .single h
  | cons a as ih =>
    have first := attributeText_spelling (known a List.mem_cons_self)
    have behind := ih fun b hb => known b (List.mem_cons_of_mem a hb)
    rw [List.map_cons, leading, List.append_assoc]
    exact .comma first behind

/-- **A name is read back from the spellings of its attributes.** -/
theorem read_leading {as : List Attribute} {last : Attribute}
    (known : ∀ a ∈ as ++ [last], HasShortName a.type ∧ a.Fits) :
    read (leading (as.map fun a => (a.spelling, [])) ++ last.spelling) =
      .ok ((as ++ [last]).map fun a => [a]) := by
  have front : ∀ a ∈ as, HasShortName a.type := fun a ha =>
    (known a (List.mem_append_left _ ha)).1
  have back := attributeText_spelling (known last (by simp)).1
  refine read_eq_ok_iff.mpr ⟨.inr (nameText_leading front back), fun a ha => ?_, fun g hg => ?_⟩
  · rw [← List.flatMap_def, List.flatMap_singleton'] at ha
    exact (known a ha).2
  · obtain ⟨a, -, rfl⟩ := List.mem_map.mp hg
    exact List.pairwise_singleton _ a

end NotaryNetwork.Name
