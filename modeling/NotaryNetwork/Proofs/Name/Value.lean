import NotaryNetwork.Name.Attribute
import NotaryNetwork.Proofs.Name.Pieces
import NotaryNetwork.Proofs.Name.Separator

/-!
# Spellings of values

The printer writes a value by pieces (`escape_eq_spell`), each of which says whether its character
stands for itself, is escaped, or is written by its digits. What it writes is one of the spellings
of the value (`valueText_escape`), and it is sealed: no comma of the value is taken for a separator
(`sealed_escape`).
-/

namespace NotaryNetwork.Name

/-! ## Pieces -/

namespace Piece

/-- A piece that the spelling of a value has: an octet is that of the null character. -/
def Written : Piece → Prop
  | plain c => reserved.contains c = false
  | special c => specials.contains c = true
  | octet a b => a = '0' ∧ b = '0'

/-- The character of a piece that the spelling of a value has. -/
def char : Piece → Char
  | plain c => c
  | special c => c
  | octet _ _ => '\x00'

theorem Written.admitted {p : Piece} (h : p.Written) : p.Admitted := by
  cases p with
  | plain c => exact h
  | special c => exact h
  | octet a b =>
    obtain ⟨rfl, rfl⟩ := h
    exact ⟨by decide, by decide, by decide⟩

theorem Written.sealed {p : Piece} (h : p.Written) : Sealed p.spelling := by
  cases p with
  | plain c =>
    have free : reserved.contains c = false := h
    have back : c ≠ '\\' := by rintro rfl; exact absurd free (by decide)
    have comma : c ≠ ',' := by rintro rfl; exact absurd free (by decide)
    exact Sealed.single back comma
  | special c => exact Sealed.unit c
  | octet a b =>
    obtain ⟨rfl, rfl⟩ := h
    exact (Sealed.unit '0').append (Sealed.single (by decide) (by decide))

end Piece

/-- Pieces that a spelling has stand for their characters. -/
theorem stands_map_char {ps : List Piece} (written : ∀ p ∈ ps, p.Written) :
    Stands ps (ps.map Piece.char) := by
  induction ps with
  | nil => exact .nil
  | cons p ps ih =>
    have later := ih fun q hq => written q (List.mem_cons_of_mem p hq)
    cases p with
    | plain c => exact .plain c later
    | special c => exact .special c later
    | octet a b =>
      obtain ⟨rfl, rfl⟩ := written _ List.mem_cons_self
      have null : Text.Hex.decode? (Text.Hex.paired [('0', '0')]) =
          some (Text.Utf8.encode ['\x00']) := by decide
      exact .octets null later

/-! ## The pieces of a value -/

/-- The piece of a character, apart from what its place demands. -/
def innerPiece (c : Char) : Piece :=
  if escapedAnywhere.contains c then .special c
  else if c = '\x00' then .octet '0' '0'
  else .plain c

/-- The pieces of the characters behind the first. -/
def tailPieces : List Char → List Piece
  | [] => []
  | [c] => [if c = ' ' then .special ' ' else innerPiece c]
  | c :: cs => innerPiece c :: tailPieces cs

/-- The pieces of a value. -/
def valuePieces : List Char → List Piece
  | [] => []
  | c :: cs => (if c = '#' ∨ c = ' ' then .special c else innerPiece c) :: tailPieces cs

theorem spelling_innerPiece (c : Char) : (innerPiece c).spelling = escapeChar c := by
  unfold innerPiece escapeChar
  split
  · rfl
  · split <;> rfl

theorem escapeLast_append (xs : List Char) {ys : List Char} (h : ys ≠ []) :
    escapeLast (xs ++ ys) = xs ++ escapeLast ys := by
  induction xs with
  | nil => rfl
  | cons x xs ih =>
    rw [List.cons_append, escapeLast, ih, List.cons_append]
    simp [h]

theorem escapeChar_ne_nil (c : Char) : escapeChar c ≠ [] := by
  unfold escapeChar
  split
  · simp
  · split <;> simp

theorem escapeLast_escapeChar (c : Char) :
    escapeLast (escapeChar c) =
      (if c = ' ' then Piece.special ' ' else innerPiece c).spelling := by
  by_cases space : c = ' '
  · subst space; rfl
  · rw [if_neg space, spelling_innerPiece]
    unfold escapeChar
    split
    · simp [escapeLast, space]
    · split <;> simp [escapeLast, space]

theorem escapeLast_flatMap (cs : List Char) :
    escapeLast (cs.flatMap escapeChar) = spell (tailPieces cs) := by
  fun_induction tailPieces cs with
  | case1 => rfl
  | case2 c => simp [escapeLast_escapeChar, spell]
  | case3 c cs more ih =>
    have some_rest : cs.flatMap escapeChar ≠ [] := by
      cases cs with
      | nil => exact absurd rfl more
      | cons d ds => simp [escapeChar_ne_nil]
    rw [List.flatMap_cons, escapeLast_append _ some_rest, ih, spell_cons, spelling_innerPiece]

/-- A character that is neither a mark nor a space stays as it is at the start. -/
theorem escapeFirst_escapeChar {c : Char} (mark : c ≠ '#') (space : c ≠ ' ') (cs : List Char) :
    escapeFirst (escapeChar c ++ cs) = escapeChar c ++ cs := by
  obtain ⟨d, ds, e, mark, space⟩ :
      ∃ d ds, escapeChar c = d :: ds ∧ d ≠ '#' ∧ d ≠ ' ' := by
    unfold escapeChar
    split
    · exact ⟨_, _, rfl, by decide, by decide⟩
    · split
      · exact ⟨_, _, rfl, by decide, by decide⟩
      · exact ⟨_, _, rfl, mark, space⟩
  rw [e, List.cons_append, escapeFirst]
  · exact fun _ e => mark (List.cons.inj e).1
  · exact fun _ _ e => space (List.cons.inj e).1

/-- The spelling of a value is that of its pieces. -/
theorem escape_eq_spell (value : List Char) : escape value = spell (valuePieces value) := by
  cases value with
  | nil => rfl
  | cons c cs =>
    unfold escape
    by_cases mark : c = '#'
    · subst mark
      have start : ('#' :: cs).flatMap escapeChar = '#' :: cs.flatMap escapeChar := rfl
      rw [start, escapeFirst, valuePieces, if_pos (by decide), spell_cons, ← escapeLast_flatMap]
      cases cs.flatMap escapeChar <;> rfl
    · by_cases space : c = ' '
      · subst space
        have start : (' ' :: cs).flatMap escapeChar = ' ' :: cs.flatMap escapeChar := rfl
        rw [start, valuePieces, if_pos (by decide), spell_cons, ← escapeLast_flatMap]
        cases cs.flatMap escapeChar <;> rfl
      · rw [List.flatMap_cons, escapeFirst_escapeChar mark space, ← List.flatMap_cons,
          escapeLast_flatMap, valuePieces, if_neg (by simp [mark, space])]
        cases cs with
        | nil => simp [tailPieces, space, spell]
        | cons d ds => rfl

theorem innerPiece_written (c : Char) : (innerPiece c).Written := by
  unfold innerPiece
  split
  · rename_i known
    simp only [escapedAnywhere, List.contains_cons, List.contains_nil, Bool.or_false,
      Bool.or_eq_true, beq_iff_eq] at known
    rcases known with rfl | rfl | rfl | rfl | rfl | rfl | rfl <;> exact rfl
  · split
    · exact ⟨rfl, rfl⟩
    · rename_i free null
      have plain : reserved.contains c = false := by
        simp only [escapedAnywhere, reserved, List.contains_cons, List.contains_nil, Bool.or_false,
          Bool.or_eq_true, Bool.or_eq_false_iff, beq_iff_eq, beq_eq_false_iff_ne, not_or] at free ⊢
        grind
      exact plain

theorem char_innerPiece (c : Char) : (innerPiece c).char = c := by
  unfold innerPiece
  split
  · rfl
  · split
    · rename_i null; exact null.symm
    · rfl

theorem tailPieces_written (cs : List Char) : ∀ p ∈ tailPieces cs, p.Written := by
  fun_induction tailPieces cs with
  | case1 => simp
  | case2 c =>
    intro p hp
    rw [List.mem_singleton] at hp
    subst hp
    split
    · exact rfl
    · exact innerPiece_written c
  | case3 c cs more ih =>
    intro p hp
    rcases List.mem_cons.mp hp with rfl | hp
    · exact innerPiece_written c
    · exact ih p hp

theorem map_char_tailPieces (cs : List Char) : (tailPieces cs).map Piece.char = cs := by
  fun_induction tailPieces cs with
  | case1 => rfl
  | case2 c =>
    split
    · rename_i space; rw [space]; rfl
    · rw [List.map_singleton, char_innerPiece]
  | case3 c cs more ih => rw [List.map_cons, char_innerPiece, ih]

theorem valuePieces_written (value : List Char) : ∀ p ∈ valuePieces value, p.Written := by
  cases value with
  | nil => simp [valuePieces]
  | cons c cs =>
    intro p hp
    rcases List.mem_cons.mp hp with rfl | hp
    · split
      · rename_i edge
        rcases edge with rfl | rfl <;> exact rfl
      · exact innerPiece_written c
    · exact tailPieces_written cs p hp

theorem map_char_valuePieces (value : List Char) : (valuePieces value).map Piece.char = value := by
  cases value with
  | nil => rfl
  | cons c cs =>
    rw [valuePieces, List.map_cons, map_char_tailPieces]
    split
    · rfl
    · rw [char_innerPiece]

/-! ## No bare space at the ends -/

theorem head?_valuePieces (value : List Char) {c : Char} (edge : c = '#' ∨ c = ' ') :
    (valuePieces value).head? ≠ some (.plain c) := by
  cases value with
  | nil => simp [valuePieces]
  | cons d ds =>
    rw [valuePieces, List.head?_cons]
    split
    · simp
    · rename_i inner
      intro e
      have same := congrArg Piece.char (Option.some.inj e)
      rw [char_innerPiece] at same
      exact inner (same ▸ edge)

theorem getLast?_tailPieces (cs : List Char) : (tailPieces cs).getLast? ≠ some (.plain ' ') := by
  fun_induction tailPieces cs with
  | case1 => simp
  | case2 c =>
    by_cases space : c = ' '
    · simp [space]
    · rw [if_neg space, List.getLast?_singleton]
      intro e
      have same := congrArg Piece.char (Option.some.inj e)
      rw [char_innerPiece] at same
      exact space same
  | case3 c cs more ih =>
    cases rest : tailPieces cs with
    | nil =>
      have none_left := map_char_tailPieces cs
      rw [rest] at none_left
      exact absurd none_left.symm more
    | cons q qs => rwa [List.getLast?_cons_cons, ← rest]

theorem getLast?_valuePieces (value : List Char) :
    (valuePieces value).getLast? ≠ some (.plain ' ') := by
  cases value with
  | nil => simp [valuePieces]
  | cons c cs =>
    rw [valuePieces]
    cases rest : tailPieces cs with
    | nil =>
      by_cases edge : c = '#' ∨ c = ' '
      · simp [edge]
      · rw [if_neg edge, List.getLast?_singleton]
        intro e
        have same := congrArg Piece.char (Option.some.inj e)
        rw [char_innerPiece] at same
        exact edge (.inr same)
    | cons q qs =>
      rw [List.getLast?_cons_cons, ← rest]
      exact getLast?_tailPieces cs

/-! ## The spelling -/

theorem sealed_escape (value : List Char) : Sealed (escape value) := by
  rw [escape_eq_spell]
  exact Sealed.flatMap fun p hp => (valuePieces_written value p hp).sealed

/-- What is written for a value is one of its spellings. -/
theorem valueText_escape (value : List Char) : ValueText value (escape value) := by
  have stands := stands_map_char (valuePieces_written value)
  rw [map_char_valuePieces] at stands
  rw [escape_eq_spell]
  refine .pieces (fun p hp => (valuePieces_written value p hp).admitted) stands ?_ ?_ ?_
  · exact head?_valuePieces value (.inr rfl)
  · exact head?_valuePieces value (.inl rfl)
  · exact getLast?_valuePieces value

/-- The spelling of a value ends with the last character of the value, unless that is the null
character. -/
theorem escape_append_singleton (value : List Char) {c : Char} (null : c ≠ '\x00') :
    ∃ front, escape (value ++ [c]) = front ++ [c] := by
  have chars := map_char_valuePieces (value ++ [c])
  rw [escape_eq_spell]
  rcases List.eq_nil_or_concat (valuePieces (value ++ [c])) with empty | ⟨front, p, e⟩
  · rw [empty] at chars
    exact absurd chars.symm (by simp)
  · rw [e, List.concat_eq_append, List.map_append] at chars
    have last : p.char = c := by simpa using (List.append_inj' chars rfl).2
    refine ⟨?_, ?_⟩
    · exact spell front ++ p.spelling.dropLast
    · rw [e, List.concat_eq_append, spell, List.flatMap_append, List.append_assoc]
      cases p with
      | plain d => rw [← last]; rfl
      | special d => rw [← last]; rfl
      | octet a b => exact absurd last.symm null

end NotaryNetwork.Name
