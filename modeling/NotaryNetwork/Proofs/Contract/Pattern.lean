import NotaryNetwork.Contract.Pattern

/-!
# What patterns match

`Matches` says which texts a pattern matches as a whole. The rests that the matcher finds are those
of all the ways to match the start of a text (`mem_rests_iff`), so a pattern accepts the texts that
it matches, with or without a final line feed (`accepts_iff`).
-/

namespace NotaryNetwork.Contract.Pattern

/-- The texts that a pattern matches as a whole. -/
def Matches : Pattern → List Char → Prop
  | text ts, cs => cs = ts
  | range first last, cs => ∃ c, cs = [c] ∧ inRange first last c = true
  | many first last, cs => ∀ c ∈ cs, inRange first last c = true
  | seq p q, cs => ∃ front back, cs = front ++ back ∧ p.Matches front ∧ q.Matches back
  | either p q, cs => p.Matches cs ∨ q.Matches cs

theorem mem_repeats_iff {first last : Char} {cs rest : List Char} :
    rest ∈ repeats first last cs ↔
      ∃ front, cs = front ++ rest ∧ ∀ c ∈ front, inRange first last c = true := by
  induction cs with
  | nil =>
    rw [repeats, List.mem_singleton]
    constructor
    · rintro rfl
      exact ⟨[], rfl, fun c hc => nomatch hc⟩
    · rintro ⟨front, e, -⟩
      exact (List.append_eq_nil_iff.mp e.symm).2
  | cons c cs ih =>
    rw [repeats, List.mem_cons]
    constructor
    · rintro (rfl | later)
      · exact ⟨[], rfl, fun d hd => nomatch hd⟩
      · split at later
        · rename_i here
          obtain ⟨front, rfl, all⟩ := ih.mp later
          exact ⟨c :: front, rfl, List.forall_mem_cons.mpr ⟨here, all⟩⟩
        · cases later
    · rintro ⟨front, e, all⟩
      cases front with
      | nil => exact .inl e.symm
      | cons d front =>
        obtain ⟨rfl, rfl⟩ := List.cons.inj e
        obtain ⟨here, all⟩ := List.forall_mem_cons.mp all
        rw [if_pos here]
        exact .inr (ih.mpr ⟨front, rfl, all⟩)

/-- **The rests that are found are those after the starts of the text that the pattern matches.** -/
theorem mem_rests_iff {p : Pattern} {cs rest : List Char} :
    rest ∈ p.rests cs ↔ ∃ front, cs = front ++ rest ∧ p.Matches front := by
  induction p generalizing cs rest with
  | text ts =>
    simp only [rests, Option.mem_toList, Text.after?_eq_some_iff, Matches]
    constructor
    · rintro rfl
      exact ⟨ts, rfl, rfl⟩
    · rintro ⟨front, rfl, rfl⟩
      rfl
  | range first last =>
    cases cs with
    | nil =>
      simp only [rests, List.not_mem_nil, Matches, false_iff]
      rintro ⟨_, e, c, rfl, -⟩
      cases e
    | cons c cs =>
      simp only [rests, Matches]
      constructor
      · intro h
        split at h
        · rename_i here
          obtain rfl := List.mem_singleton.mp h
          exact ⟨[c], rfl, c, rfl, here⟩
        · cases h
      · rintro ⟨_, e, d, rfl, here⟩
        obtain ⟨rfl, rfl⟩ := List.cons.inj e
        rw [if_pos here]
        exact List.mem_singleton_self _
  | many first last => exact mem_repeats_iff
  | seq p q ihp ihq =>
    simp only [rests, List.mem_flatMap, ihp, ihq, Matches]
    constructor
    · rintro ⟨_, ⟨front, rfl, hp⟩, back, rfl, hq⟩
      exact ⟨front ++ back, (List.append_assoc ..).symm, front, back, rfl, hp, hq⟩
    · rintro ⟨_, rfl, front, back, rfl, hp, hq⟩
      exact ⟨back ++ rest, ⟨front, List.append_assoc .., hp⟩, back, rfl, hq⟩
  | either p q ihp ihq =>
    simp only [rests, List.mem_append, ihp, ihq, Matches]
    constructor
    · rintro (⟨front, e, h⟩ | ⟨front, e, h⟩)
      · exact ⟨front, e, .inl h⟩
      · exact ⟨front, e, .inr h⟩
    · rintro ⟨front, e, h | h⟩
      · exact .inl ⟨front, e, h⟩
      · exact .inr ⟨front, e, h⟩

/-- **A pattern accepts a text that it matches as a whole, or up to a final line feed.** -/
theorem accepts_iff {p : Pattern} {s : String} :
    p.accepts s = true ↔ p.Matches s.toList ∨ ∃ cs, s.toList = cs ++ ['\n'] ∧ p.Matches cs := by
  unfold accepts
  rw [List.any_eq_true]
  constructor
  · rintro ⟨rest, found, last⟩
    obtain ⟨front, e, h⟩ := mem_rests_iff.mp found
    rcases Bool.or_eq_true_iff.mp last with last | last
    · obtain rfl := of_decide_eq_true last
      rw [List.append_nil] at e
      exact .inl (e ▸ h)
    · obtain rfl := of_decide_eq_true last
      exact .inr ⟨front, e, h⟩
  · rintro (h | ⟨front, e, h⟩)
    · exact ⟨[], mem_rests_iff.mpr ⟨s.toList, (List.append_nil _).symm, h⟩, rfl⟩
    · exact ⟨['\n'], mem_rests_iff.mpr ⟨front, e, h⟩, rfl⟩

end NotaryNetwork.Contract.Pattern
