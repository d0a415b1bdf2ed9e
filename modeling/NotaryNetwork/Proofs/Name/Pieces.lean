import NotaryNetwork.Name.Parser
import NotaryNetwork.Proofs.Outcome
import NotaryNetwork.Proofs.Text.Hex
import NotaryNetwork.Proofs.Text.Utf8

/-!
# Spellings of values

A value is spelled by pieces or by the digits of its bytes (`ValueText`). A piece is a character
that stands for itself, a special character after a backslash, or two digits after a backslash, and
the bytes of one character may take several of the last kind (`Stands`). Reading a value takes just
such a spelling off the text (`readValue_of_text`, `exists_valueText`); runs of digits are cut into
characters as UTF-8 says.
-/

namespace NotaryNetwork.Name

open Text (isAlphanumeric)
open Text.Hex (decode? paired)

/-! ## Pieces -/

namespace Piece

/-- The text of a piece. -/
def spelling : Piece → List Char
  | plain c => [c]
  | special c => ['\\', c]
  | octet a b => ['\\', a, b]

/-- A piece that a value may have. -/
def Admitted : Piece → Prop
  | plain c => reserved.contains c = false
  | special c => specials.contains c = true
  | octet a b => specials.contains a = false ∧ isAlphanumeric a = true ∧ isAlphanumeric b = true

/-- The piece of a pair of digits. -/
def ofPair (pair : Char × Char) : Piece := octet pair.1 pair.2

end Piece

/-- The text of pieces. -/
def spell (pieces : List Piece) : List Char := pieces.flatMap Piece.spelling

theorem spell_cons (p : Piece) (ps : List Piece) : spell (p :: ps) = p.spelling ++ spell ps := rfl

theorem spell_append (ps qs : List Piece) : spell (ps ++ qs) = spell ps ++ spell qs := by
  simp [spell]

/-- What pieces stand for: a character for itself, or the digits of its bytes. -/
inductive Stands : List Piece → List Char → Prop
  | nil : Stands [] []
  | plain (c : Char) {ps : List Piece} {value : List Char} (later : Stands ps value) :
      Stands (.plain c :: ps) (c :: value)
  | special (c : Char) {ps : List Piece} {value : List Char} (later : Stands ps value) :
      Stands (.special c :: ps) (c :: value)
  | octets {c : Char} {pairs : List (Char × Char)} {ps : List Piece} {value : List Char}
      (bytes : decode? (paired pairs) = some (Text.Utf8.encode [c]))
      (later : Stands ps value) : Stands (pairs.map Piece.ofPair ++ ps) (c :: value)

/-- The spellings of a value. Neither a mark nor a space stands bare at its start, and no space at
its end. -/
inductive ValueText (value : List Char) : List Char → Prop
  | pieces {ps : List Piece} (admitted : ∀ p ∈ ps, p.Admitted) (stands : Stands ps value)
      (space : ps.head? ≠ some (.plain ' ')) (mark : ps.head? ≠ some (.plain '#'))
      (last : ps.getLast? ≠ some (.plain ' ')) : ValueText value (spell ps)
  | encoded {digits : List Char} (filled : digits ≠ [])
      (bytes : decode? digits = some (Text.Utf8.encode value)) :
      ValueText value ('#' :: digits)

/-! ## Taking pieces -/

/-- A text at which a value ends: nothing, or a sign between attributes. -/
def EndsValue : List Char → Prop
  | [] => True
  | c :: _ => c = ',' ∨ c = '+'

namespace EndsValue

theorem nil : EndsValue [] := trivial

theorem comma (later : List Char) : EndsValue (',' :: later) := .inl rfl

theorem plus (later : List Char) : EndsValue ('+' :: later) := .inr rfl

theorem takePieces {rest : List Char} (h : EndsValue rest) : takePieces rest = ([], rest) := by
  cases rest with
  | nil => rfl
  | cons c cs => rcases h with rfl | rfl <;> rfl

end EndsValue

/-- Reading takes the pieces of a text off it, up to where no piece can be taken. -/
theorem takePieces_spell {ps : List Piece} (admitted : ∀ p ∈ ps, p.Admitted) {rest : List Char}
    (h : takePieces rest = ([], rest)) : takePieces (spell ps ++ rest) = (ps, rest) := by
  induction ps with
  | nil => exact h
  | cons p ps ih =>
    have behind := ih fun q hq => admitted q (List.mem_cons_of_mem p hq)
    have first := admitted p List.mem_cons_self
    rw [spell_cons, List.append_assoc]
    cases p with
    | plain c =>
      have step := takePieces_plain first (spell ps ++ rest)
      rwa [behind] at step
    | special c =>
      have step := takePieces_special first (spell ps ++ rest)
      rwa [behind] at step
    | octet a b =>
      obtain ⟨free, ha, hb⟩ := first
      have step := takePieces_octet free ha hb (spell ps ++ rest)
      rwa [behind] at step

/-- What is taken are pieces that a value may have, and the text after them. -/
theorem takePieces_eq (cs : List Char) :
    cs = spell (takePieces cs).1 ++ (takePieces cs).2 ∧ ∀ p ∈ (takePieces cs).1, p.Admitted := by
  fun_induction takePieces cs with
  | case1 => exact ⟨rfl, by simp⟩
  | case2 c cs known pieces rest taken ih =>
    rw [taken] at ih
    refine ⟨?_, ?_⟩
    · rw [spell_cons, List.append_assoc, ← ih.1]
      rfl
    · exact List.forall_mem_cons.mpr ⟨known, ih.2⟩
  | case3 c free => exact ⟨rfl, by simp⟩
  | case4 c free d cs digits pieces rest taken ih =>
    rw [taken] at ih
    refine ⟨?_, ?_⟩
    · rw [spell_cons, List.append_assoc, ← ih.1]
      rfl
    · exact List.forall_mem_cons.mpr ⟨⟨by simpa using free, digits.1, digits.2⟩, ih.2⟩
  | case5 c free d cs other => exact ⟨rfl, by simp⟩
  | case6 c cs other known => exact ⟨rfl, by simp⟩
  | case7 c cs other free pieces rest taken ih =>
    rw [taken] at ih
    refine ⟨?_, ?_⟩
    · rw [spell_cons, List.append_assoc, ← ih.1]
      rfl
    · exact List.forall_mem_cons.mpr ⟨by simpa [Piece.Admitted] using free, ih.2⟩

theorem splitTrailing_eq_self {ps : List Piece} (h : ps.getLast? ≠ some (.plain ' ')) :
    splitTrailing ps = (ps, []) := by
  induction ps with
  | nil => rfl
  | cons p ps ih =>
    cases ps with
    | nil =>
      have dark : p ≠ .plain ' ' := fun e => h (by rw [e]; rfl)
      simp [splitTrailing, dark]
    | cons q qs =>
      rw [List.getLast?_cons_cons] at h
      rw [splitTrailing, ih h]

/-- The bare spaces at the end are taken off, and nothing else. -/
theorem splitTrailing_eq (ps : List Piece) :
    ps = (splitTrailing ps).1 ++ (splitTrailing ps).2.map Piece.plain ∧
      (splitTrailing ps).1.getLast? ≠ some (.plain ' ') := by
  fun_induction splitTrailing ps with
  | case1 => exact ⟨rfl, by simp⟩
  | case2 ps spaces found ih =>
    rw [found] at ih
    exact ⟨congrArg _ ih.1, by simp⟩
  | case3 p ps spaces found dark ih =>
    rw [found] at ih
    exact ⟨congrArg _ ih.1, by simpa using dark⟩
  | case4 p ps kept spaces some_kept found ih =>
    rw [found] at ih
    refine ⟨congrArg _ ih.1, ?_⟩
    cases kept with
    | nil => exact absurd rfl some_kept
    | cons q qs =>
      rw [List.getLast?_cons_cons]
      exact ih.2

theorem spell_map_plain (cs : List Char) : spell (cs.map Piece.plain) = cs := by
  induction cs with
  | nil => rfl
  | cons c cs ih => rw [List.map_cons, spell_cons, ih]; rfl

/-! ## Decoding -/

/-- A run of pairs of digits stands for the text that their bytes write. -/
theorem decodeOctets_eq_ok_iff {run : List (Char × Char)} {value : List Char} :
    decodeOctets run = .ok value ↔
      decode? (paired run) = some (Text.Utf8.encode value) := by
  unfold decodeOctets
  rw [← paired]
  dsimp only
  constructor
  · intro h
    split at h
    · cases h
    · split at h
      · cases h
      · rename_i bytes decoded
        cases read : Text.Utf8.decode bytes with
        | error e => rw [read] at h; cases h
        | ok cs =>
          rw [read] at h
          cases h
          rw [decoded, Text.Utf8.decode_eq_ok_iff.mp read]
  · intro h
    have ascii : (paired run).all Text.Ascii.contains = true := by
      refine List.all_eq_true.mpr fun c member => ?_
      obtain ⟨n, value⟩ := Text.Hex.exists_value?_of_decode? h member
      have range := Text.Hex.range_of_value? value
      simp only [Text.Ascii.contains, decide_eq_true_eq]
      omega
    have read : Text.Utf8.decode (Text.Utf8.encode value) = .ok value :=
      Text.Utf8.decode_eq_ok_iff.mpr rfl
    simp only [ascii, h, read, Bool.not_true, Bool.false_eq_true, if_false, mapError_ok]

theorem Stands.append {ps qs : List Piece} {v w : List Char} (front : Stands ps v)
    (back : Stands qs w) : Stands (ps ++ qs) (v ++ w) := by
  induction front with
  | nil => exact back
  | plain c later ih => exact .plain c ih
  | special c later ih => exact .special c ih
  | octets bytes later ih =>
    rw [List.append_assoc]
    exact .octets bytes ih

/-- Digits of the bytes of a text stand for it, character by character. -/
theorem stands_octets {run : List (Char × Char)} {value : List Char}
    (h : decode? (paired run) = some (Text.Utf8.encode value)) :
    Stands (run.map Piece.ofPair) value := by
  induction value generalizing run with
  | nil =>
    cases run with
    | nil => exact .nil
    | cons p run =>
      obtain ⟨high, low, later, -, -, -, e⟩ := Text.Hex.decode?_pair.mp h
      cases e
  | cons c cs ih =>
    have bytes : Text.Utf8.encode (c :: cs) = Text.Utf8.encode [c] ++ Text.Utf8.encode cs :=
      Text.Utf8.encode_append [c] cs
    rw [bytes] at h
    obtain ⟨ps, qs, rfl, front, back⟩ := Text.Hex.decode?_paired_split h
    rw [List.map_append]
    exact .octets front (ih back)

theorem decodeFrom_octets (run pairs : List (Char × Char)) (ps : List Piece) :
    decodeFrom run (pairs.map Piece.ofPair ++ ps) = decodeFrom (run ++ pairs) ps := by
  induction pairs generalizing run with
  | nil => rw [List.append_nil]; rfl
  | cons p pairs ih =>
    rw [List.map_cons, List.cons_append, Piece.ofPair, decodeFrom, ih, List.append_assoc]
    rfl

/-- Pieces stand for their text, also after a run of digits. -/
theorem decodeFrom_of_stands {ps : List Piece} {value : List Char} (h : Stands ps value)
    {run : List (Char × Char)} {before : List Char} (open_run : decodeOctets run = .ok before) :
    decodeFrom run ps = .ok (before ++ value) := by
  -- A bare or a special character ends the run; the digits of a character make it longer.
  induction h generalizing run before with
  | nil => rw [decodeFrom, open_run, List.append_nil]
  | plain c later ih =>
    have fresh : decodeOctets [] = .ok [] := rfl
    rw [decodeFrom, open_run, ih fresh]
    rfl
  | special c later ih =>
    have fresh : decodeOctets [] = .ok [] := rfl
    rw [decodeFrom, open_run, ih fresh]
    rfl
  | octets bytes later ih =>
    rename_i c pairs ps value
    have longer : decodeOctets (run ++ pairs) = .ok (before ++ [c]) := by
      rw [decodeOctets_eq_ok_iff, Text.Utf8.encode_append]
      exact Text.Hex.decode?_paired_append (decodeOctets_eq_ok_iff.mp open_run) bytes
    rw [decodeFrom_octets, ih longer, List.append_assoc]
    rfl

theorem stands_of_decodeFrom {ps : List Piece} {run : List (Char × Char)} {value : List Char}
    (h : decodeFrom run ps = .ok value) : Stands (run.map Piece.ofPair ++ ps) value := by
  fun_induction decodeFrom run ps generalizing value with
  | case1 run =>
    rw [List.append_nil]
    exact stands_octets (decodeOctets_eq_ok_iff.mp h)
  | case2 run a b ps ih =>
    have later := ih h
    rwa [List.map_append, List.append_assoc] at later
  | case3 run c ps ih =>
    obtain ⟨before, closed, h⟩ := bind_eq_ok.mp h
    obtain ⟨behind, decoded, h⟩ := bind_eq_ok.mp h
    cases h
    exact (stands_octets (decodeOctets_eq_ok_iff.mp closed)).append (.plain c (ih decoded))
  | case4 run c ps ih =>
    obtain ⟨before, closed, h⟩ := bind_eq_ok.mp h
    obtain ⟨behind, decoded, h⟩ := bind_eq_ok.mp h
    cases h
    exact (stands_octets (decodeOctets_eq_ok_iff.mp closed)).append (.special c (ih decoded))

theorem decodePieces_eq_ok_iff {ps : List Piece} {value : List Char} :
    decodePieces ps = .ok value ↔ Stands ps value := by
  constructor
  · intro h
    exact stands_of_decodeFrom h
  · intro h
    have fresh : decodeOctets [] = .ok [] := rfl
    exact decodeFrom_of_stands h fresh

/-! ## Reading values -/

theorem takeDigitPairs_ends {rest : List Char} (h : EndsValue rest) :
    takeDigitPairs rest = ([], rest) := by
  cases rest with
  | nil => rfl
  | cons c cs =>
    have sign : isAlphanumeric c = false := by rcases h with rfl | rfl <;> decide
    cases cs with
    | nil => rfl
    | cons d ds => simp [takeDigitPairs, sign]

theorem takeDigitPairs_paired {pairs : List (Char × Char)}
    (known : ∀ c ∈ paired pairs, isAlphanumeric c = true) {rest : List Char} (h : EndsValue rest) :
    takeDigitPairs (paired pairs ++ rest) = (pairs, rest) := by
  induction pairs with
  | nil => exact takeDigitPairs_ends h
  | cons p pairs ih =>
    obtain ⟨a, b⟩ := p
    have text : paired ((a, b) :: pairs) = a :: b :: paired pairs := rfl
    rw [text] at known ⊢
    rw [List.forall_mem_cons, List.forall_mem_cons] at known
    obtain ⟨ha, hb, known⟩ := known
    rw [List.cons_append, List.cons_append, takeDigitPairs, if_pos ⟨ha, hb⟩, ih known]

theorem takeDigitPairs_eq (cs : List Char) :
    cs = paired (takeDigitPairs cs).1 ++ (takeDigitPairs cs).2 := by
  fun_induction takeDigitPairs cs with
  | case1 a b cs digits pairs rest taken ih =>
    rw [taken] at ih
    exact congrArg (a :: b :: ·) ih
  | case2 => rfl
  | case3 => rfl

/-- The text of pieces starts with no bare character that the first piece does not have. -/
theorem spell_append_ne {ps : List Piece} {rest : List Char} (ends : EndsValue rest) {c : Char}
    (inside : c ≠ ',' ∧ c ≠ '+' ∧ c ≠ '\\') (h : ps.head? ≠ some (.plain c)) (cs : List Char) :
    spell ps ++ rest ≠ c :: cs := by
  intro e
  cases ps with
  | nil =>
    cases rest with
    | nil => cases e
    | cons d ds =>
      obtain ⟨rfl, -⟩ := List.cons.inj e
      rcases ends with rfl | rfl
      · exact inside.1 rfl
      · exact inside.2.1 rfl
  | cons p ps =>
    rw [spell_cons] at e
    cases p with
    | plain d =>
      obtain ⟨rfl, -⟩ := List.cons.inj e
      exact h rfl
    | special d => exact inside.2.2 (List.cons.inj e).1.symm
    | octet a b => exact inside.2.2 (List.cons.inj e).1.symm

/-- A value is read from each of its spellings. -/
theorem readValue_of_text {value text rest : List Char} (h : ValueText value text)
    (ends : EndsValue rest) : readValue (text ++ rest) = .ok (value, rest) := by
  unfold readValue
  cases h with
  | encoded filled bytes =>
    rename_i digits
    obtain ⟨pairs, rfl⟩ := Text.Hex.exists_paired bytes
    have known : ∀ c ∈ paired pairs, isAlphanumeric c = true := by
      intro c member
      obtain ⟨n, value⟩ := Text.Hex.exists_value?_of_decode? bytes member
      exact Text.Hex.isAlphanumeric_of_value? value
    rw [List.cons_append]
    simp only [takeDigitPairs_paired known ends]
    cases pairs with
    | nil => exact absurd rfl filled
    | cons p pairs =>
      simp only [decodeOctets_eq_ok_iff.mpr bytes]
      rfl
  | pieces admitted stands space mark last =>
    rename_i ps
    have taken : takeValue (spell ps ++ rest) = (ps, rest) := by
      unfold takeValue
      split
      · rename_i cs e
        exact absurd e (spell_append_ne ends (by decide) space cs)
      · rw [takePieces_spell admitted ends.takePieces]
        simp only [splitTrailing_eq_self last, List.nil_append]
    split
    · rename_i digits e
      exact absurd e (spell_append_ne ends (by decide) mark digits)
    · rw [taken]
      simp only [decodePieces_eq_ok_iff.mpr stands]
      rfl

theorem spell_of_head? {ps : List Piece} {c : Char} (h : ps.head? = some (.plain c)) :
    ∃ cs, spell ps = c :: cs := by
  obtain ⟨qs, rfl⟩ := List.head?_eq_some_iff.mp h
  exact ⟨spell qs, rfl⟩

/-- What is taken for a value has no bare space at its ends. -/
theorem takeValue_eq {cs rest : List Char} {ps : List Piece} (h : takeValue cs = (ps, rest)) :
    cs = spell ps ++ rest ∧ (∀ p ∈ ps, p.Admitted) ∧ ps.head? ≠ some (.plain ' ') ∧
      ps.getLast? ≠ some (.plain ' ') := by
  unfold takeValue at h
  split at h
  · cases h
    exact ⟨rfl, by simp, by simp, by simp⟩
  · rename_i dark
    cases h
    obtain ⟨text, admitted⟩ := takePieces_eq cs
    obtain ⟨parts, last⟩ := splitTrailing_eq (takePieces cs).1
    rw [parts, spell_append, spell_map_plain, List.append_assoc] at text
    refine ⟨text, fun p hp => ?_, fun first => ?_, last⟩
    · apply admitted p
      rw [parts]
      exact List.mem_append_left _ hp
    · obtain ⟨after, e⟩ := spell_of_head? first
      rw [e, List.cons_append] at text
      exact dark _ text

/-- What is read as a value is one of its spellings. -/
theorem exists_valueText {cs value rest : List Char} (h : readValue cs = .ok (value, rest)) :
    ∃ text, cs = text ++ rest ∧ ValueText value text := by
  unfold readValue at h
  split at h
  · rename_i digits
    have text := takeDigitPairs_eq digits
    split at h
    · cases h
    · rename_i pairs rest' some_pair taken
      rw [taken] at text
      cases decoded : decodeOctets pairs with
      | error e => rw [decoded] at h; cases h
      | ok cs =>
        rw [decoded] at h
        cases h
        refine ⟨'#' :: paired pairs, ?_, .encoded ?_ (decodeOctets_eq_ok_iff.mp decoded)⟩
        · rw [text]
          rfl
        · intro empty
          cases pairs with
          | nil => exact some_pair rfl
          | cons p pairs => cases empty
  · rename_i mark
    cases taken : takeValue cs with
    | mk ps rest' =>
      obtain ⟨text, admitted, space, last⟩ := takeValue_eq taken
      simp only [taken] at h
      cases decoded : decodePieces ps with
      | error e => rw [decoded] at h; cases h
      | ok cs' =>
        rw [decoded] at h
        cases h
        refine ⟨spell ps, text, ?_⟩
        refine .pieces admitted (decodePieces_eq_ok_iff.mp decoded) space (fun first => ?_) last
        obtain ⟨after, e⟩ := spell_of_head? first
        rw [e, List.cons_append] at text
        exact mark _ text

end NotaryNetwork.Name
