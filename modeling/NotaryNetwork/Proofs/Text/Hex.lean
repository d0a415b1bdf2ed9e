import NotaryNetwork.Text.Decimal
import NotaryNetwork.Text.Hex

/-!
# Digits of bytes

Digits that stand for bytes come in pairs (`exists_paired`), one for each byte, so they are cut
where the bytes are (`decode?_paired_append`, `decode?_paired_split`).
-/

namespace NotaryNetwork.Text.Hex

/-- Pairs of digits in a row. -/
def paired (pairs : List (Char × Char)) : List Char := pairs.flatMap fun (a, b) => [a, b]

theorem exists_value?_of_decode? {cs : List Char} {bytes : Bytes}
    (h : decode? cs = some bytes) {c : Char} (member : c ∈ cs) :
    ∃ n, value? c = some n := by
  fun_induction decode? cs generalizing bytes with
  | case1 => cases member
  | case2 => cases h
  | case3 a b cs ih =>
    obtain ⟨high, low, later, ha, hb, behind, -⟩ := decode?_pair.mp h
    rcases List.mem_cons.mp member with rfl | member
    · exact ⟨high, ha⟩
    · rcases List.mem_cons.mp member with rfl | member
      · exact ⟨low, hb⟩
      · exact ih behind member

theorem exists_paired {cs : List Char} {bytes : Bytes} (h : decode? cs = some bytes) :
    ∃ pairs, cs = paired pairs := by
  fun_induction decode? cs generalizing bytes with
  | case1 => exact ⟨[], rfl⟩
  | case2 => cases h
  | case3 a b cs ih =>
    obtain ⟨high, low, later, -, -, behind, -⟩ := decode?_pair.mp h
    obtain ⟨pairs, rfl⟩ := ih behind
    exact ⟨(a, b) :: pairs, rfl⟩

theorem decode?_paired_append {ps qs : List (Char × Char)} {xs ys : Bytes}
    (front : decode? (paired ps) = some xs)
    (back : decode? (paired qs) = some ys) :
    decode? (paired (ps ++ qs)) = some (xs ++ ys) := by
  induction ps generalizing xs with
  | nil =>
    cases front
    exact back
  | cons p ps ih =>
    obtain ⟨high, low, later, ha, hb, behind, rfl⟩ := decode?_pair.mp front
    exact decode?_pair.mpr ⟨high, low, later ++ ys, ha, hb, ih behind, rfl⟩

theorem decode?_paired_split {pairs : List (Char × Char)} {xs ys : Bytes}
    (h : decode? (paired pairs) = some (xs ++ ys)) :
    ∃ ps qs, pairs = ps ++ qs ∧ decode? (paired ps) = some xs ∧
      decode? (paired qs) = some ys := by
  induction xs generalizing pairs with
  | nil => exact ⟨[], pairs, rfl, rfl, h⟩
  | cons x xs ih =>
    cases pairs with
    | nil => cases h
    | cons p pairs =>
      obtain ⟨high, low, later, ha, hb, behind, e⟩ := decode?_pair.mp h
      obtain ⟨rfl, rfl⟩ := List.cons.inj e
      obtain ⟨ps, qs, rfl, front, back⟩ := ih behind
      exact ⟨p :: ps, qs, rfl, decode?_pair.mpr ⟨high, low, xs, ha, hb, front, rfl⟩, back⟩

theorem range_of_value? {c : Char} {n : Nat} (h : value? c = some n) :
    0x30 ≤ c.toNat ∧ c.toNat ≤ 0x39 ∨ 0x61 ≤ c.toNat ∧ c.toNat ≤ 0x66 ∨
      0x41 ≤ c.toNat ∧ c.toNat ≤ 0x46 := by
  unfold value? at h
  simp only at h
  split at h
  · exact .inl ‹_›
  · split at h
    · exact .inr (.inl ‹_›)
    · split at h
      · exact .inr (.inr ‹_›)
      · cases h

theorem isAlphanumeric_of_value? {c : Char} {n : Nat} (h : value? c = some n) :
    isAlphanumeric c = true := by
  unfold isAlphanumeric
  rw [Bool.or_eq_true]
  rcases range_of_value? h with ⟨low, high⟩ | ⟨low, high⟩ | ⟨low, high⟩
  · have digit : c.isDigit = true :=
      Bool.and_eq_true_iff.mpr ⟨decide_eq_true low, decide_eq_true high⟩
    exact .inr (isDecimalDigit_of_isDigit digit)
  · have most : c.toNat ≤ 0x7A := by omega
    have lower : c.isLower = true :=
      Bool.and_eq_true_iff.mpr ⟨decide_eq_true low, decide_eq_true most⟩
    exact .inl (Bool.or_eq_true_iff.mpr (.inr lower))
  · have most : c.toNat ≤ 0x5A := by omega
    have upper : c.isUpper = true := decide_eq_true ⟨low, most⟩
    exact .inl (Bool.or_eq_true_iff.mpr (.inl upper))

end NotaryNetwork.Text.Hex
