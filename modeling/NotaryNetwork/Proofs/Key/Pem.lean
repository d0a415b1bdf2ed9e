import Mathlib.Data.List.TakeWhile
import NotaryNetwork.Key.Pem
import NotaryNetwork.Proofs.Key.Spki
import NotaryNetwork.Proofs.Text.Base64

/-!
# Keys of curves as text

A mark is found where its first character has not stood before (`seekFrom_append`), so the lines
around a block are found and the text between them is the base64 in lines (`firstBlock?_block`).
Its lines hold no empty one (`dropHeaders?_lines`) and without their ends they are the base64 again
(`filter_lines`). A key of a curve is read from its text, and two such keys with one text are one
key (`decode_encode_key`).
-/

namespace NotaryNetwork.Key.Pem

open Text (isWhiteSpace)
open Text.Base64 (IsLetter)

/-! ## Marks -/

/-- What is to come of a mark is read, where it is there. -/
theorem seekFrom_found (mark todo seen rest : List Char) :
    seekFrom mark todo seen (todo ++ rest) =
      some (((todo.reverse ++ seen).drop mark.length).reverse, rest) := by
  induction todo generalizing seen with
  | nil =>
    cases rest <;> rfl
  | cons m todo ih =>
    rw [List.cons_append, seekFrom, if_pos rfl, ih, List.reverse_cons, List.append_assoc,
      List.singleton_append]

section Passing

variable {m : Char} {mark before : List Char} (absent : m ∉ before)

include absent

/-- Text without the first character of a mark is passed over. -/
theorem seekFrom_passed (seen rest : List Char) :
    seekFrom (m :: mark) (m :: mark) seen (before ++ rest) =
      seekFrom (m :: mark) (m :: mark) (before.reverse ++ seen) rest := by
  induction before generalizing seen with
  | nil => rfl
  | cons c before ih =>
    obtain ⟨other, absent⟩ := not_or.mp (mt List.mem_cons.mpr absent)
    rw [List.cons_append, seekFrom, if_neg (Ne.symm other), ih absent, List.reverse_cons,
      List.append_assoc, List.singleton_append]

theorem seekFrom_eq_none (seen : List Char) :
    seekFrom (m :: mark) (m :: mark) seen before = none := by
  rw [← List.append_nil before, seekFrom_passed absent, seekFrom]

end Passing

/-- **A mark is found behind text without its first character.** -/
theorem seek_append {mark : String} {m : Char} (head : mark.toList.head? = some m)
    {before : List Char} (absent : m ∉ before) (rest : List Char) :
    seek mark (before ++ (mark.toList ++ rest)) = some (before, rest) := by
  obtain ⟨ms, spelled⟩ := List.head?_eq_some_iff.mp head
  rw [seek, spelled, seekFrom_passed absent, seekFrom_found, List.append_nil,
    ← List.length_reverse, List.drop_left, List.reverse_reverse]

theorem seek_eq_none {mark : String} {m : Char} (head : mark.toList.head? = some m)
    {cs : List Char} (absent : m ∉ cs) : seek mark cs = none := by
  obtain ⟨ms, spelled⟩ := List.head?_eq_some_iff.mp head
  rw [seek, spelled, seekFrom_eq_none absent]

/-! ## Lines -/

variable {cs : List Char}

theorem lines_cons (count : Nat) (c : Char) :
    lines (count + 1) (c :: cs) =
      (c :: cs).take 64 ++ '\n' :: lines count ((c :: cs).drop 64) := rfl

/-- A text that can stand in a line: letters of base64. -/
def AreLetters (cs : List Char) : Prop := ∀ c ∈ cs, IsLetter c

theorem mem_lines {count : Nat} {c : Char} (h : c ∈ lines count cs) : c ∈ cs ∨ c = '\n' := by
  induction count generalizing cs with
  | zero => cases h
  | succ count ih =>
    cases cs with
    | nil => cases h
    | cons d cs =>
      rw [lines_cons, List.mem_append, List.mem_cons] at h
      rcases h with h | rfl | h
      · exact .inl (List.mem_of_mem_take h)
      · exact .inr rfl
      · exact (ih h).imp_left List.mem_of_mem_drop

theorem not_mem_lines {count : Nat} {c : Char} (letters : AreLetters cs) (feed : c ≠ '\n')
    (other : ¬ IsLetter c) : c ∉ lines count cs := fun h =>
  (mem_lines h).elim (fun member => other (letters c member)) feed

/-- **The lines of a text without their ends are the text.** -/
theorem filter_lines (letters : AreLetters cs) {count : Nat} (room : cs.length ≤ count) :
    ((lines count cs).filter fun c => !isWhiteSpace c) = cs := by
  have kept : ∀ {ds : List Char}, AreLetters ds → (ds.filter fun c => !isWhiteSpace c) = ds :=
    fun letters => List.filter_eq_self.mpr fun c hc => by simp [(letters c hc).plain.1]
  induction count generalizing cs with
  | zero =>
    obtain rfl := List.eq_nil_of_length_eq_zero (Nat.le_zero.mp room)
    rfl
  | succ count ih =>
    cases cs with
    | nil => rfl
    | cons c cs =>
      have line : AreLetters ((c :: cs).take 64) := fun d hd =>
        letters d (List.mem_of_mem_take hd)
      have later : AreLetters ((c :: cs).drop 64) := fun d hd =>
        letters d (List.mem_of_mem_drop hd)
      have shorter : ((c :: cs).drop 64).length ≤ count := by
        rw [List.length_drop]
        omega
      have feed : isWhiteSpace '\n' = true := by decide
      rw [lines_cons, List.filter_append, List.filter_cons, feed, kept line, ih later shorter]
      exact List.take_append_drop 64 (c :: cs)

/-- The first character of lines is no line feed. -/
theorem head_lines (letters : AreLetters cs) {count : Nat} {c : Char} {rest : List Char}
    (h : lines count cs = c :: rest) : IsLetter c := by
  cases count with
  | zero => cases h
  | succ count =>
    cases cs with
    | nil => cases h
    | cons d cs =>
      obtain ⟨rfl, -⟩ := List.cons.inj h
      exact letters _ List.mem_cons_self

/-- No two line feeds stand side by side in lines, also not behind a line feed that stands before
them. -/
theorem seekFrom_feeds_lines (letters : AreLetters cs) (count : Nat) (seen : List Char) :
    seekFrom ['\n', '\n'] ['\n', '\n'] seen (lines count cs) = none ∧
      seekFrom ['\n', '\n'] ['\n'] seen (lines count cs) = none := by
  induction count generalizing cs seen with
  | zero => exact ⟨rfl, rfl⟩
  | succ count ih =>
    cases cs with
    | nil => exact ⟨rfl, rfl⟩
    | cons c cs =>
      have later : AreLetters ((c :: cs).drop 64) := fun d hd =>
        letters d (List.mem_of_mem_drop hd)
      have line : '\n' ∉ (c :: cs).take 64 := fun h =>
        IsLetter.ne_feed (letters _ (List.mem_of_mem_take h)) rfl
      have whole : ∀ seen, seekFrom ['\n', '\n'] ['\n', '\n'] seen (lines (count + 1) (c :: cs)) =
          none := by
        intro seen
        rw [lines_cons, seekFrom_passed line, seekFrom, if_pos rfl]
        exact (ih later _).2
      refine ⟨whole seen, ?_⟩
      -- The first letter breaks off the mark that the line feed before it has begun.
      have first := letters c List.mem_cons_self
      have start : lines (count + 1) (c :: cs) =
          c :: ((cs.take 63) ++ '\n' :: lines count ((c :: cs).drop 64)) := rfl
      have broken := whole seen
      rw [start, seekFrom, if_neg (IsLetter.ne_feed first)] at broken
      rw [start, seekFrom, if_neg (IsLetter.ne_feed first)]
      exact broken

/-- Lines have no empty line among them, so all of them are base64. -/
theorem dropHeaders?_lines (letters : AreLetters cs) (count : Nat) :
    dropHeaders? (lines count cs) = some (lines count cs) := by
  have return_absent : '\r' ∉ lines count cs :=
    not_mem_lines letters (by decide) fun h => absurd h.plain.1 (by decide)
  have feeds : seek "\n\n" (lines count cs) = none := (seekFrom_feeds_lines letters count []).1
  have returns : seek "\r\n\r\n" (lines count cs) = none := seek_eq_none (by decide) return_absent
  unfold dropHeaders?
  rw [feeds, returns]
  rfl

theorem contents?_lines (bytes : Bytes) {count : Nat}
    (room : (Text.Base64.encode bytes).length ≤ count) :
    contents? (lines count (Text.Base64.encode bytes)) = some bytes := by
  have letters : AreLetters (Text.Base64.encode bytes) := fun c hc =>
    Text.Base64.isLetter_of_mem_encode hc
  unfold contents?
  rw [dropHeaders?_lines letters, Option.bind_eq_bind, Option.bind_some,
    filter_lines letters room, Text.Base64.decode_encode]

/-! ## Blocks -/

/-- The blanks after a beginning line are the line feed that ends it. -/
theorem dropWhile_gap (letters : AreLetters cs) (count : Nat) (rest : List Char) :
    ('\n' :: (lines count cs ++ '-' :: rest)).dropWhile isGap = lines count cs ++ '-' :: rest := by
  rw [List.dropWhile_cons_of_pos (by decide)]
  cases h : lines count cs with
  | nil => exact List.dropWhile_cons_of_neg (by decide)
  | cons c more =>
    have plain := (head_lines letters h).plain.1
    have kept : ¬ isGap c = true := by
      intro gap
      simp only [isGap, Bool.or_eq_true, decide_eq_true_eq] at gap
      rcases gap with ((rfl | rfl) | rfl) | rfl <;> exact absurd plain (by decide)
    exact List.dropWhile_cons_of_neg kept

/-- **The first block of the text of a block is the block.** -/
theorem firstBlock?_block {label : List Char} (plain : '-' ∉ label) (named : label ≠ [])
    (bytes : Bytes) : firstBlock? (block label bytes) = some (label, bytes) := by
  have letters : AreLetters (Text.Base64.encode bytes) := fun c hc =>
    Text.Base64.isLetter_of_mem_encode hc
  obtain ⟨body, same⟩ : ∃ body, body =
    lines (Text.Base64.encode bytes).length (Text.Base64.encode bytes) := ⟨_, rfl⟩
  have body_plain : '-' ∉ body := by
    rw [same]
    exact not_mem_lines letters (by decide) fun h => absurd rfl h.plain.2.1
  have spelled : block label bytes = "-----BEGIN ".toList ++ (label ++ ("-----".toList ++
      '\n' :: (body ++ ("-----END ".toList ++ (label ++ ("-----".toList ++ ['\n'])))))) := by
    unfold block
    simp [← same]
  have gap : ∀ rest, ('\n' :: (body ++ ("-----END ".toList ++ rest))).dropWhile isGap =
      body ++ ("-----END ".toList ++ rest) := by
    intro rest
    rw [same]
    exact dropWhile_gap letters _ _
  have start := @seek_append "-----BEGIN " '-' (by decide) [] List.not_mem_nil
  have middle := @seek_append "-----" '-' (by decide) _ plain
  have finish := @seek_append "-----END " '-' (by decide) _ body_plain
  have inside := contents?_lines bytes (Nat.le_refl _)
  rw [← same] at inside
  simp only [List.nil_append] at start
  unfold firstBlock?
  simp only [spelled, start, middle, gap, finish, Option.bind_eq_bind, Option.bind_some]
  rw [if_pos ⟨trivial, named⟩, inside]
  rfl

/-- Blocks are written in ASCII. -/
theorem all_contains_block {label : List Char} (plain : label.all Text.Ascii.contains = true)
    (bytes : Bytes) : (block label bytes).all Text.Ascii.contains = true := by
  have body : (lines (Text.Base64.encode bytes).length (Text.Base64.encode bytes)).all
      Text.Ascii.contains = true := by
    refine List.all_eq_true.mpr fun c hc => ?_
    rcases mem_lines hc with hc | rfl
    · exact (Text.Base64.isLetter_of_mem_encode hc).plain.2.2
    · decide
  unfold block
  simp only [List.all_append, Bool.and_eq_true]
  exact ⟨⟨⟨⟨⟨⟨by decide, plain⟩, by decide⟩, body⟩, by decide⟩, plain⟩, by decide⟩

theorem exists_ascii_block {label : List Char} (plain : label.all Text.Ascii.contains = true)
    (bytes : Bytes) : ∃ ascii, Text.Ascii.encode (block label bytes) = .ok ascii := by
  have rest : (block label bytes).dropWhile Text.Ascii.contains = [] := by
    rw [List.dropWhile_eq_nil_iff]
    exact List.all_eq_true.mp (all_contains_block plain bytes)
  unfold Text.Ascii.encode
  rw [rest]
  exact ⟨_, rfl⟩

/-! ## Keys -/

theorem decode_eq (key : PublicKey) : decode (encode key) = decodeGeneral (Spki.encode key) := by
  obtain ⟨ascii, encoded⟩ := @exists_ascii_block label (by decide) (Spki.encode key)
  have block := @firstBlock?_block label (by decide) (by decide) (Spki.encode key)
  unfold decode encode
  rw [String.toList_ofList]
  simp only [encoded, block]
  rfl

/-- **A key of a curve is read from its text, and no other has this text.** -/
theorem decode_encode_key {key : PublicKey} (h : key.IsCurveKey) :
    decode (encode key) = .ok key ∧
      ∀ other : PublicKey, other.IsCurveKey → encode other = encode key → other = key := by
  have read : ∀ {key : PublicKey}, key.IsCurveKey → decode (encode key) = .ok key := by
    intro key h
    rw [decode_eq, decodeGeneral, Spki.decode_encode_curve h]
  refine ⟨read h, fun other h' same => ?_⟩
  have here := read h'
  rw [same, read h] at here
  exact (Except.ok.inj here).symm

/-- The base point of a curve. -/
def basePoint (curve : NamedCurve) : PublicKey := .ec curve curve.curve.baseX curve.curve.baseY

/-- A key of 32 zeros. -/
def zeros : RawKey := ⟨List.replicate 32 0, by decide⟩

theorem decode_encode_key_base :
    (basePoint .secp256k1).IsCurveKey ∧
      decode (encode (basePoint .secp256k1)) = .ok (basePoint .secp256k1) ∧
      encode (.x25519 zeros) ≠ encode (.ed25519 zeros) := by
  have point : (basePoint .secp256k1).IsCurveKey := by
    show NamedCurve.secp256k1.curve.contains _ _ = true
    decide +kernel
  have apart := (@decode_encode_key (.ed25519 zeros) trivial).2 (.x25519 zeros) trivial
  exact ⟨point, (decode_encode_key point).1, fun same => nomatch apart same⟩

end NotaryNetwork.Key.Pem
