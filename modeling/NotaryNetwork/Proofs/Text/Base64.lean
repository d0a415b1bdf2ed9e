import NotaryNetwork.Text.Base64
import NotaryNetwork.Text.Search
import NotaryNetwork.Text.Utf8

/-!
# The characters of base64

Bytes are written with sixty-four digits and the fill (`isLetter_of_mem_encode`). None of these is
white space, a hyphen or a character beyond ASCII (`IsLetter.plain`).
-/

namespace NotaryNetwork.Text.Base64

/-- A digit or the fill. -/
def IsLetter (c : Char) : Prop := (∃ n < 64, c = digit n) ∨ c = '='

theorem isLetter_digit {n : Nat} (h : n < 64) : IsLetter (digit n) := .inl ⟨n, h, rfl⟩

theorem isLetter_of_mem_encode : ∀ {bytes : Bytes} {c : Char}, c ∈ encode bytes → IsLetter c
  | [], c, h => nomatch h
  | [a], c, h => by
    have ha : a.toNat < 256 := a.toNat_lt
    simp only [encode, List.mem_cons, List.not_mem_nil, or_false] at h
    rcases h with rfl | rfl | rfl | rfl
    · exact isLetter_digit (by omega)
    · exact isLetter_digit (by omega)
    · exact .inr rfl
    · exact .inr rfl
  | [a, b], c, h => by
    have ha : a.toNat < 256 := a.toNat_lt
    have hb : b.toNat < 256 := b.toNat_lt
    simp only [encode, List.mem_cons, List.not_mem_nil, or_false] at h
    rcases h with rfl | rfl | rfl | rfl
    · exact isLetter_digit (by omega)
    · exact isLetter_digit (by omega)
    · exact isLetter_digit (by omega)
    · exact .inr rfl
  | a :: b :: d :: bytes, c, h => by
    have ha : a.toNat < 256 := a.toNat_lt
    have hb : b.toNat < 256 := b.toNat_lt
    have hd : d.toNat < 256 := d.toNat_lt
    simp only [encode, List.mem_cons] at h
    rcases h with rfl | rfl | rfl | rfl | h
    · exact isLetter_digit (by omega)
    · exact isLetter_digit (by omega)
    · exact isLetter_digit (by omega)
    · exact isLetter_digit (by omega)
    · exact isLetter_of_mem_encode h

/-- No letter ends a line, begins a mark or needs more than ASCII. -/
theorem IsLetter.plain {c : Char} (h : IsLetter c) :
    isWhiteSpace c = false ∧ c ≠ '-' ∧ Ascii.contains c = true := by
  rcases h with ⟨n, hn, rfl⟩ | rfl
  · have key : ∀ m : Fin 64, isWhiteSpace (digit m) = false ∧ digit m ≠ '-' ∧
        Ascii.contains (digit m) = true := by decide
    exact key ⟨n, hn⟩
  · decide

theorem IsLetter.ne_feed {c : Char} (h : IsLetter c) : c ≠ '\n' := by
  rintro rfl
  exact absurd h.plain.1 (by decide)

end NotaryNetwork.Text.Base64
