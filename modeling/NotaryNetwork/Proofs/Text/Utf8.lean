import NotaryNetwork.Proofs.Outcome
import NotaryNetwork.Text.Utf8

/-!
# UTF-8 is read as it is written

The bytes that are read as a text are just those that the text is written by (`decode_eq_ok_iff`).
A byte above ASCII opens a character of two, three or four bytes (`opened_two`, `opened_three`,
`opened_four`) or none at all (`opened_none`), and what may follow it are the other bytes of such a
character (`decodeFrom_two`, `decodeFrom_three`, `decodeFrom_four`).
-/

namespace NotaryNetwork.Text.Utf8

/-! ## Characters and bytes -/

theorem val_ofNat {n : Nat} (h : n.isValidChar) : (Char.ofNat n).val.toNat = n := by
  rw [Char.ofNat, dif_pos h]
  rfl

theorem ofNat_val (c : Char) : Char.ofNat c.val.toNat = c := Char.ofNat_toNat c

theorem ofNat_eq_byte {n : Nat} {b : UInt8} (h : n = b.toNat) : UInt8.ofNat n = b := by
  rw [h, UInt8.ofNat_toNat]

theorem toNat_byte {n : Nat} (h : n < 256) : (UInt8.ofNat n).toNat = n := by
  rw [UInt8.toNat_ofNat', Nat.mod_eq_of_lt h]

variable {c : Char}

theorem encode_one (h : c.val.toNat ≤ 127) :
    String.utf8EncodeChar c = [UInt8.ofNat c.val.toNat] := by
  rw [String.utf8EncodeChar.eq_def]
  simp only [h, if_true]

theorem encode_two (low : 127 < c.val.toNat) (high : c.val.toNat ≤ 2047) :
    String.utf8EncodeChar c =
      [UInt8.ofNat (c.val.toNat / 64 % 32 + 192), UInt8.ofNat (c.val.toNat % 64 + 128)] := by
  rw [String.utf8EncodeChar.eq_def]
  simp only [high, Nat.not_le.mpr low, if_true, if_false]

theorem encode_three (low : 2047 < c.val.toNat) (high : c.val.toNat ≤ 65535) :
    String.utf8EncodeChar c =
      [UInt8.ofNat (c.val.toNat / 4096 % 16 + 224), UInt8.ofNat (c.val.toNat / 64 % 64 + 128),
        UInt8.ofNat (c.val.toNat % 64 + 128)] := by
  have beyond : ¬ c.val.toNat ≤ 127 := by omega
  rw [String.utf8EncodeChar.eq_def]
  simp only [high, beyond, Nat.not_le.mpr low, if_true, if_false]

theorem encode_four (low : 65535 < c.val.toNat) :
    String.utf8EncodeChar c =
      [UInt8.ofNat (c.val.toNat / 262144 % 8 + 240), UInt8.ofNat (c.val.toNat / 4096 % 64 + 128),
        UInt8.ofNat (c.val.toNat / 64 % 64 + 128), UInt8.ofNat (c.val.toNat % 64 + 128)] := by
  have beyond : ¬ c.val.toNat ≤ 127 := by omega
  have beyond' : ¬ c.val.toNat ≤ 2047 := by omega
  rw [String.utf8EncodeChar.eq_def]
  simp only [beyond, beyond', Nat.not_le.mpr low, if_false]

/-! ## Bytes that open a character -/

variable {i : Nat} {b : UInt8}

theorem opened_two (low : 0xC2 ≤ b.toNat) (high : b.toNat ≤ 0xDF) :
    opened i b = some ⟨i, [b], 1, 0x80, 0xBF, b.toNat - 0xC0⟩ := by
  simp only [opened, low, high, and_self, if_true]

/-- The bounds of the second byte leave out overlong forms and surrogates. -/
theorem opened_three (first : 0xE0 ≤ b.toNat) (last : b.toNat ≤ 0xEF) :
    ∃ low high, opened i b = some ⟨i, [b], 2, low, high, b.toNat - 0xE0⟩ ∧
      ∀ x, low ≤ x ∧ x ≤ high ↔ 0x80 ≤ x ∧ x ≤ 0xBF ∧ (b.toNat = 0xE0 → 0xA0 ≤ x) ∧
        (b.toNat = 0xED → x ≤ 0x9F) := by
  have two : ¬ (0xC2 ≤ b.toNat ∧ b.toNat ≤ 0xDF) := by omega
  by_cases overlong : b.toNat = 0xE0
  · exact ⟨0xA0, 0xBF, by simp [opened, overlong], fun x => by omega⟩
  by_cases surrogate : b.toNat = 0xED
  · exact ⟨0x80, 0x9F, by simp [opened, surrogate], fun x => by omega⟩
  have three : 0xE1 ≤ b.toNat := by omega
  refine ⟨0x80, 0xBF, ?_, fun x => by omega⟩
  simp only [opened, two, overlong, surrogate, three, last, and_self, if_true, if_false]

/-- The bounds of the second byte leave out overlong forms and what is past the last character. -/
theorem opened_four (first : 0xF0 ≤ b.toNat) (last : b.toNat ≤ 0xF4) :
    ∃ low high, opened i b = some ⟨i, [b], 3, low, high, b.toNat - 0xF0⟩ ∧
      ∀ x, low ≤ x ∧ x ≤ high ↔ 0x80 ≤ x ∧ x ≤ 0xBF ∧ (b.toNat = 0xF0 → 0x90 ≤ x) ∧
        (b.toNat = 0xF4 → x ≤ 0x8F) := by
  by_cases overlong : b.toNat = 0xF0
  · exact ⟨0x90, 0xBF, by simp [opened, overlong], fun x => by omega⟩
  by_cases past : b.toNat = 0xF4
  · exact ⟨0x80, 0x8F, by simp [opened, past], fun x => by omega⟩
  have two : ¬ (0xC2 ≤ b.toNat ∧ b.toNat ≤ 0xDF) := by omega
  have three : ¬ (0xE1 ≤ b.toNat ∧ b.toNat ≤ 0xEF) := by omega
  have other : b.toNat ≠ 0xE0 ∧ b.toNat ≠ 0xED := by omega
  have four : 0xF1 ≤ b.toNat ∧ b.toNat ≤ 0xF3 := by omega
  refine ⟨0x80, 0xBF, ?_, fun x => by omega⟩
  simp only [opened, two, three, other, overlong, four, and_self, if_true, if_false]

theorem opened_none (h : b.toNat < 0xC2 ∨ 0xF4 < b.toNat) : opened i b = none := by
  have two : ¬ (0xC2 ≤ b.toNat ∧ b.toNat ≤ 0xDF) := by omega
  have three : ¬ (0xE1 ≤ b.toNat ∧ b.toNat ≤ 0xEF) := by omega
  have four : ¬ (0xF1 ≤ b.toNat ∧ b.toNat ≤ 0xF3) := by omega
  have other : b.toNat ≠ 0xE0 ∧ b.toNat ≠ 0xED ∧ b.toNat ≠ 0xF0 ∧ b.toNat ≠ 0xF4 := by omega
  simp only [opened, two, three, four, other, if_false]

/-! ## Reading on -/

variable {bytes : Bytes} {cs : List Char} {p : Pending}

theorem map_cons_eq_ok {x : Except DecodeError (List Char)} :
    (c :: ·) <$> x = .ok cs ↔ ∃ rest, cs = c :: rest ∧ x = .ok rest := by
  cases x with
  | error e => simp [Functor.map, Except.map]
  | ok rest => simp [Functor.map, Except.map, eq_comm]

theorem decodeFrom_opened (h : ¬ b.toNat < 0x80) (opens : opened i b = some p) (bytes : Bytes) :
    decodeFrom i none (b :: bytes) = decodeFrom (i + 1) (some p) bytes := by
  rw [decodeFrom, if_neg h, opens]

/-- The last byte of a character. -/
theorem decodeFrom_last {position low high code : Nat} {before : Bytes} :
    decodeFrom i (some ⟨position, before, 1, low, high, code⟩) bytes = .ok cs ↔
      ∃ b rest cs', bytes = b :: rest ∧ (low ≤ b.toNat ∧ b.toNat ≤ high) ∧
        cs = Char.ofNat (code * 64 + (b.toNat - 0x80)) :: cs' ∧
        decodeFrom (i + 1) none rest = .ok cs' := by
  cases bytes with
  | nil => simp [decodeFrom]
  | cons b rest =>
    rw [decodeFrom]
    by_cases within : low ≤ b.toNat ∧ b.toNat ≤ high
    · rw [if_pos within]
      simp only [if_true, map_cons_eq_ok]
      constructor
      · rintro ⟨cs', e, later⟩
        exact ⟨b, rest, cs', rfl, within, e, later⟩
      · rintro ⟨_, _, cs', same, -, e, later⟩
        cases same
        exact ⟨cs', e, later⟩
    · rw [if_neg within]
      constructor
      · intro h
        cases h
      · rintro ⟨_, _, -, same, fits, -⟩
        cases same
        exact absurd fits within

/-- A byte of a character that is not its last. -/
theorem decodeFrom_inner {position missing low high code : Nat} {before : Bytes} :
    decodeFrom i (some ⟨position, before, missing + 2, low, high, code⟩) bytes = .ok cs ↔
      ∃ b rest, bytes = b :: rest ∧ (low ≤ b.toNat ∧ b.toNat ≤ high) ∧
        decodeFrom (i + 1) (some ⟨position, before ++ [b], missing + 1, 0x80, 0xBF,
          code * 64 + (b.toNat - 0x80)⟩) rest = .ok cs := by
  have more : ¬ missing + 2 = 1 := by omega
  cases bytes with
  | nil => simp [decodeFrom]
  | cons b rest =>
    rw [decodeFrom]
    by_cases within : low ≤ b.toNat ∧ b.toNat ≤ high
    · rw [if_pos within]
      simp only [more, if_false]
      constructor
      · intro later
        exact ⟨b, rest, rfl, within, later⟩
      · rintro ⟨_, _, same, -, later⟩
        cases same
        exact later
    · rw [if_neg within]
      constructor
      · intro h
        cases h
      · rintro ⟨_, _, same, fits, -⟩
        cases same
        exact absurd fits within

/-! ## Characters by their width -/

/-- A byte that opens a character of two starts the bytes of such a character. -/
theorem decodeFrom_two (low : 0xC2 ≤ b.toNat) (high : b.toNat ≤ 0xDF) :
    decodeFrom i none (b :: bytes) = .ok cs ↔
      ∃ c rest cs', (127 < c.val.toNat ∧ c.val.toNat ≤ 2047) ∧
        b :: bytes = String.utf8EncodeChar c ++ rest ∧ cs = c :: cs' ∧
        decodeFrom (i + 2) none rest = .ok cs' := by
  rw [decodeFrom_opened (by omega) (opened_two low high), decodeFrom_last]
  constructor
  · rintro ⟨x, rest, cs', rfl, within, rfl, later⟩
    have val := val_ofNat (n := (b.toNat - 0xC0) * 64 + (x.toNat - 0x80)) (.inl (by omega))
    refine ⟨_, rest, cs', by omega, ?_, rfl, later⟩
    have first : ((b.toNat - 0xC0) * 64 + (x.toNat - 0x80)) / 64 % 32 + 192 = b.toNat := by omega
    have second : ((b.toNat - 0xC0) * 64 + (x.toNat - 0x80)) % 64 + 128 = x.toNat := by omega
    rw [encode_two (by omega) (by omega), val, ofNat_eq_byte first, ofNat_eq_byte second]
    rfl
  · rintro ⟨c, rest, cs', width, same, rfl, later⟩
    rw [encode_two width.1 width.2] at same
    cases same
    have first := toNat_byte (n := c.val.toNat / 64 % 32 + 192) (by omega)
    have second := toNat_byte (n := c.val.toNat % 64 + 128) (by omega)
    refine ⟨_, rest, cs', rfl, by omega, ?_, later⟩
    have code : (c.val.toNat / 64 % 32 + 192 - 0xC0) * 64 + (c.val.toNat % 64 + 128 - 0x80) =
        c.val.toNat := by omega
    rw [first, second, code, ofNat_val]

/-- A byte that opens a character of three starts the bytes of such a character. -/
theorem decodeFrom_three (first : 0xE0 ≤ b.toNat) (last : b.toNat ≤ 0xEF) :
    decodeFrom i none (b :: bytes) = .ok cs ↔
      ∃ c rest cs', (2047 < c.val.toNat ∧ c.val.toNat ≤ 65535) ∧
        b :: bytes = String.utf8EncodeChar c ++ rest ∧ cs = c :: cs' ∧
        decodeFrom (i + 3) none rest = .ok cs' := by
  obtain ⟨low, high, opens, bounds⟩ := opened_three (i := i) first last
  rw [decodeFrom_opened (by omega) opens, decodeFrom_inner]
  constructor
  · rintro ⟨x, more, rfl, within, h⟩
    obtain ⟨y, rest, cs', rfl, within', rfl, later⟩ := decodeFrom_last.mp h
    have within := (bounds x.toNat).mp within
    obtain ⟨n, code⟩ : ∃ n, n = ((b.toNat - 0xE0) * 64 + (x.toNat - 0x80)) * 64 +
        (y.toNat - 0x80) := ⟨_, rfl⟩
    have val : (Char.ofNat n).val.toNat = n := val_ofNat (by unfold Nat.isValidChar; omega)
    refine ⟨Char.ofNat n, rest, cs', by omega, ?_, by rw [code], later⟩
    have first : n / 4096 % 16 + 224 = b.toNat := by omega
    have second : n / 64 % 64 + 128 = x.toNat := by omega
    have third : n % 64 + 128 = y.toNat := by omega
    rw [encode_three (by omega) (by omega), val, ofNat_eq_byte first, ofNat_eq_byte second,
      ofNat_eq_byte third]
    rfl
  · rintro ⟨c, rest, cs', width, same, rfl, later⟩
    have valid : c.val.toNat.isValidChar := c.valid
    rw [encode_three width.1 width.2] at same
    cases same
    have first := toNat_byte (n := c.val.toNat / 4096 % 16 + 224) (by omega)
    have second := toNat_byte (n := c.val.toNat / 64 % 64 + 128) (by omega)
    have third := toNat_byte (n := c.val.toNat % 64 + 128) (by omega)
    refine ⟨_, _, rfl, (bounds _).mpr (by omega), decodeFrom_last.mpr ?_⟩
    refine ⟨_, rest, cs', rfl, by omega, ?_, later⟩
    have code : ((c.val.toNat / 4096 % 16 + 224 - 0xE0) * 64 +
        (c.val.toNat / 64 % 64 + 128 - 0x80)) * 64 + (c.val.toNat % 64 + 128 - 0x80) =
        c.val.toNat := by omega
    rw [first, second, third, code, ofNat_val]

/-- A byte that opens a character of four starts the bytes of such a character. -/
theorem decodeFrom_four (first : 0xF0 ≤ b.toNat) (last : b.toNat ≤ 0xF4) :
    decodeFrom i none (b :: bytes) = .ok cs ↔
      ∃ c rest cs', 65535 < c.val.toNat ∧
        b :: bytes = String.utf8EncodeChar c ++ rest ∧ cs = c :: cs' ∧
        decodeFrom (i + 4) none rest = .ok cs' := by
  obtain ⟨low, high, opens, bounds⟩ := opened_four (i := i) first last
  rw [decodeFrom_opened (by omega) opens, decodeFrom_inner]
  constructor
  · rintro ⟨x, more, rfl, within, h⟩
    obtain ⟨y, more', rfl, within', h⟩ := decodeFrom_inner.mp h
    obtain ⟨z, rest, cs', rfl, within'', rfl, later⟩ := decodeFrom_last.mp h
    have within := (bounds x.toNat).mp within
    obtain ⟨n, code⟩ : ∃ n, n = (((b.toNat - 0xF0) * 64 + (x.toNat - 0x80)) * 64 +
        (y.toNat - 0x80)) * 64 + (z.toNat - 0x80) := ⟨_, rfl⟩
    have val : (Char.ofNat n).val.toNat = n := val_ofNat (by unfold Nat.isValidChar; omega)
    refine ⟨Char.ofNat n, rest, cs', by omega, ?_, by rw [code], later⟩
    have first : n / 262144 % 8 + 240 = b.toNat := by omega
    have second : n / 4096 % 64 + 128 = x.toNat := by omega
    have third : n / 64 % 64 + 128 = y.toNat := by omega
    have fourth : n % 64 + 128 = z.toNat := by omega
    rw [encode_four (by omega), val, ofNat_eq_byte first, ofNat_eq_byte second,
      ofNat_eq_byte third, ofNat_eq_byte fourth]
    rfl
  · rintro ⟨c, rest, cs', width, same, rfl, later⟩
    have valid : c.val.toNat.isValidChar := c.valid
    rw [encode_four width] at same
    cases same
    have first := toNat_byte (n := c.val.toNat / 262144 % 8 + 240) (by omega)
    have second := toNat_byte (n := c.val.toNat / 4096 % 64 + 128) (by omega)
    have third := toNat_byte (n := c.val.toNat / 64 % 64 + 128) (by omega)
    have fourth := toNat_byte (n := c.val.toNat % 64 + 128) (by omega)
    refine ⟨_, _, rfl, (bounds _).mpr (by omega), decodeFrom_inner.mpr ?_⟩
    refine ⟨_, _, rfl, by omega, decodeFrom_last.mpr ?_⟩
    refine ⟨_, rest, cs', rfl, by omega, ?_, later⟩
    have code : (((c.val.toNat / 262144 % 8 + 240 - 0xF0) * 64 +
        (c.val.toNat / 4096 % 64 + 128 - 0x80)) * 64 + (c.val.toNat / 64 % 64 + 128 - 0x80)) * 64 +
        (c.val.toNat % 64 + 128 - 0x80) = c.val.toNat := by omega
    rw [first, second, third, fourth, code, ofNat_val]

/-- The bytes of a character are read as the character. -/
theorem decodeFrom_encode (i : Nat) (c : Char) {rest : Bytes} {cs : List Char}
    (h : ∀ j, decodeFrom j none rest = .ok cs) :
    decodeFrom i none (String.utf8EncodeChar c ++ rest) = .ok (c :: cs) := by
  have valid : c.val.toNat.isValidChar := c.valid
  by_cases one : c.val.toNat ≤ 127
  · have ascii := toNat_byte (n := c.val.toNat) (by omega)
    rw [encode_one one, List.singleton_append, decodeFrom_ascii (by omega), ascii,
      ofNat_val, h]
    rfl
  by_cases two : c.val.toNat ≤ 2047
  · have first := toNat_byte (n := c.val.toNat / 64 % 32 + 192) (by omega)
    have bytes := encode_two (by omega) two
    rw [bytes]
    refine (decodeFrom_two (by omega) (by omega)).mpr ⟨c, rest, cs, by omega, ?_, rfl, h _⟩
    rw [bytes]
    rfl
  by_cases three : c.val.toNat ≤ 65535
  · have first := toNat_byte (n := c.val.toNat / 4096 % 16 + 224) (by omega)
    have bytes := encode_three (by omega) three
    rw [bytes]
    refine (decodeFrom_three (by omega) (by omega)).mpr ⟨c, rest, cs, by omega, ?_, rfl, h _⟩
    rw [bytes]
    rfl
  · have first := toNat_byte (n := c.val.toNat / 262144 % 8 + 240) (by omega)
    have bytes := encode_four (c := c) (by omega)
    rw [bytes]
    refine (decodeFrom_four (by omega) (by omega)).mpr ⟨c, rest, cs, by omega, ?_, rfl, h _⟩
    rw [bytes]
    rfl

/-- What is read as a text that is not empty starts with the bytes of its first character. -/
theorem exists_of_decodeFrom {b : UInt8} (h : decodeFrom i none (b :: bytes) = .ok cs) :
    ∃ c cs' rest, cs = c :: cs' ∧ b :: bytes = String.utf8EncodeChar c ++ rest ∧
      ∃ j, decodeFrom j none rest = .ok cs' := by
  by_cases ascii : b.toNat < 0x80
  · rw [decodeFrom_ascii ascii, map_cons_eq_ok] at h
    obtain ⟨cs', rfl, later⟩ := h
    have val := val_ofNat (n := b.toNat) (.inl (by omega))
    refine ⟨_, cs', bytes, rfl, ?_, _, later⟩
    rw [encode_one (by omega), ofNat_eq_byte val]
    rfl
  by_cases two : 0xC2 ≤ b.toNat ∧ b.toNat ≤ 0xDF
  · obtain ⟨c, rest, cs', -, same, e, later⟩ := (decodeFrom_two two.1 two.2).mp h
    exact ⟨c, cs', rest, e, same, _, later⟩
  by_cases three : 0xE0 ≤ b.toNat ∧ b.toNat ≤ 0xEF
  · obtain ⟨c, rest, cs', -, same, e, later⟩ := (decodeFrom_three three.1 three.2).mp h
    exact ⟨c, cs', rest, e, same, _, later⟩
  by_cases four : 0xF0 ≤ b.toNat ∧ b.toNat ≤ 0xF4
  · obtain ⟨c, rest, cs', -, same, e, later⟩ := (decodeFrom_four four.1 four.2).mp h
    exact ⟨c, cs', rest, e, same, _, later⟩
  · -- No character starts with this byte.
    rw [decodeFrom, if_neg ascii, opened_none (by omega)] at h
    cases h

/-! ## Texts -/

theorem encode_cons (c : Char) (cs : List Char) :
    encode (c :: cs) = String.utf8EncodeChar c ++ encode cs := rfl

theorem encode_append (cs ds : List Char) : encode (cs ++ ds) = encode cs ++ encode ds := by
  simp [encode]

theorem decodeFrom_encode_all (cs : List Char) (i : Nat) :
    decodeFrom i none (encode cs) = .ok cs := by
  induction cs generalizing i with
  | nil => rfl
  | cons c cs ih => exact decodeFrom_encode i c ih

theorem encode_of_decodeFrom {i : Nat} (h : decodeFrom i none bytes = .ok cs) :
    encode cs = bytes := by
  -- A character may take several bytes, so the induction is on their number.
  induction size : bytes.length using Nat.strongRecOn generalizing bytes cs i with
  | _ n ih =>
    cases bytes with
    | nil =>
      cases h
      rfl
    | cons b bytes =>
      obtain ⟨c, cs', rest, rfl, e, j, later⟩ := exists_of_decodeFrom h
      have shorter : rest.length < n := by
        have one := c.utf8Size_pos
        rw [← size, e, List.length_append, String.length_utf8EncodeChar]
        omega
      rw [encode_cons, ih rest.length shorter later rfl, ← e]

/-- **Bytes are read as a text if and only if the text is written by them.** -/
theorem decode_eq_ok_iff : decode bytes = .ok cs ↔ encode cs = bytes := by
  constructor
  · exact encode_of_decodeFrom
  · rintro rfl
    exact decodeFrom_encode_all cs 0

end NotaryNetwork.Text.Utf8
