import NotaryNetwork.Text.Decimal

/-!
# The digits of numbers

The decimal digits of a number determine it (`digits_injective`), they have no zero before the first
other digit (`canonical_digits`), and no character but digits, so that a number is told from what
follows it after a dot (`digits_append_dot`). They are read as the number (`ofDigits_digits`), and
digits without a zero at the front are those of the number they are read as (`digits_ofDigits`).
The numbers that are written are those below the power of ten with as many zeros as there may be
digits (`written?_eq_some_iff`).
-/

namespace NotaryNetwork.Text

/-- The decimal digits of a number. -/
def digits (n : Nat) : List Char := (toString n).toList

theorem digits_eq_toDigits (n : Nat) : digits n = Nat.toDigits 10 n := Nat.toList_repr

theorem isDigit_of_mem_digits {n : Nat} {c : Char} (h : c ∈ digits n) : c.isDigit = true := by
  rw [digits_eq_toDigits] at h
  exact Nat.isDigit_of_mem_toDigits (by decide) (by decide) h

theorem digits_injective {m n : Nat} (h : digits m = digits n) : m = n := by
  rw [digits_eq_toDigits, digits_eq_toDigits] at h
  have same := congrArg (Nat.ofDigitChars 10 · 0) h
  simpa only [Nat.ofDigitChars_ten_toDigits] using same

theorem append_separator_inj {mark : Char} {p q x y : List Char} (hp : mark ∉ p) (hq : mark ∉ q)
    (h : p ++ mark :: x = q ++ mark :: y) : p = q ∧ x = y := by
  induction p generalizing q with
  | nil =>
    cases q with
    | nil => exact ⟨rfl, (List.cons.inj h).2⟩
    | cons d q =>
      obtain ⟨rfl, -⟩ := List.cons.inj h
      exact absurd List.mem_cons_self hq
  | cons c p ih =>
    cases q with
    | nil =>
      obtain ⟨rfl, -⟩ := List.cons.inj h
      exact absurd List.mem_cons_self hp
    | cons d q =>
      obtain ⟨rfl, rest⟩ := List.cons.inj h
      obtain ⟨rfl, same⟩ :=
        ih (mt (List.mem_cons_of_mem c) hp) (mt (List.mem_cons_of_mem c) hq) rest
      exact ⟨rfl, same⟩

theorem dot_not_mem_digits (n : Nat) : '.' ∉ digits n := fun member =>
  absurd (isDigit_of_mem_digits member) (by decide)

theorem digits_append_dot {m n : Nat} {x y : List Char}
    (h : digits m ++ '.' :: x = digits n ++ '.' :: y) : m = n ∧ x = y := by
  obtain ⟨same, rest⟩ := append_separator_inj (dot_not_mem_digits m) (dot_not_mem_digits n) h
  exact ⟨digits_injective same, rest⟩

/-- A digit from one to nine. -/
theorem digitChar_of_pos {n : Nat} (pos : 0 < n) (small : n < 10) :
    '1' ≤ n.digitChar ∧ n.digitChar ≤ '9' := by
  have cases : n = 1 ∨ n = 2 ∨ n = 3 ∨ n = 4 ∨ n = 5 ∨ n = 6 ∨ n = 7 ∨ n = 8 ∨ n = 9 := by omega
  rcases cases with rfl | rfl | rfl | rfl | rfl | rfl | rfl | rfl | rfl <;> decide

/-- Digits that are one zero, or start with another digit. -/
def Canonical (ds : List Char) : Prop :=
  ds = ['0'] ∨ ∃ c cs, ds = c :: cs ∧ ('1' ≤ c ∧ c ≤ '9') ∧ ∀ d ∈ cs, d.isDigit = true

theorem canonical_digits (n : Nat) : Canonical (digits n) := by
  have rest : ∀ {c cs}, digits n = c :: cs → ∀ d ∈ cs, d.isDigit = true := fun e d hd =>
    isDigit_of_mem_digits (n := n) (e ▸ List.mem_cons_of_mem _ hd)
  have first : ∀ m : Nat, 0 < m →
      ∃ c cs, Nat.toDigits 10 m = c :: cs ∧ '1' ≤ c ∧ c ≤ '9' := by
    intro m
    -- Dividing by ten drops the last digit and leaves the first one.
    induction m using Nat.strongRecOn with
    | ind m ih =>
      intro pos
      by_cases small : m < 10
      · exact ⟨_, [], Nat.toDigits_of_lt_base small, digitChar_of_pos pos small⟩
      · obtain ⟨c, cs, e, h⟩ := ih (m / 10) (by omega) (by omega)
        refine ⟨c, cs ++ [(m % 10).digitChar], ?_, h⟩
        rw [Nat.toDigits_of_base_le (by decide) (by omega), e]
        rfl
  cases n with
  | zero => exact .inl rfl
  | succ n =>
    obtain ⟨c, cs, e, h⟩ := first (n + 1) (by omega)
    have all : digits (n + 1) = c :: cs := (digits_eq_toDigits _).trans e
    exact .inr ⟨c, cs, all, h, rest all⟩

/-! ## Reading digits -/

theorem ofDigits_digits (n : Nat) : ofDigits (digits n) = n := by
  have read : Nat.ofDigitChars 10 (Nat.toDigits 10 n) 0 = n := Nat.ofDigitChars_ten_toDigits
  rwa [← digits_eq_toDigits] at read

theorem digitValue_lt {c : Char} (h : c.isDigit = true) : digitValue c < 10 := by
  simp only [Char.isDigit, Bool.and_eq_true, decide_eq_true_eq, ge_iff_le] at h
  have low : 0x30 ≤ c.toNat := h.1
  have high : c.toNat ≤ 0x39 := h.2
  unfold digitValue
  omega

theorem digitChar_digitValue {c : Char} (h : c.isDigit = true) : (digitValue c).digitChar = c := by
  have key : ∀ k : Fin 10, (k.val).digitChar = Char.ofNat (0x30 + k.val) := by decide
  have low : 0x30 ≤ c.toNat := by
    simp only [Char.isDigit, Bool.and_eq_true, decide_eq_true_eq, ge_iff_le] at h
    exact h.1
  have whole : 0x30 + digitValue c = c.toNat := Nat.add_sub_cancel' low
  rw [key ⟨digitValue c, digitValue_lt h⟩, whole, Char.ofNat_toNat]

/-- Every digit more is one digit more of the number, if that is not zero so far. -/
theorem toDigits_foldl {cs : List Char} (h : ∀ d ∈ cs, d.isDigit = true) {n : Nat} (pos : 1 ≤ n) :
    Nat.toDigits 10 (cs.foldl (fun n c => 10 * n + digitValue c) n) = Nat.toDigits 10 n ++ cs := by
  induction cs generalizing n with
  | nil => simp
  | cons c cs ih =>
    have digit := h c List.mem_cons_self
    have small := digitValue_lt digit
    have front : (10 * n + digitValue c) / 10 = n := by omega
    have last : (10 * n + digitValue c) % 10 = digitValue c := by omega
    rw [List.foldl_cons, ih (fun d hd => h d (List.mem_cons_of_mem c hd)) (by omega),
      Nat.toDigits_of_base_le (by decide) (by omega), front, last, digitChar_digitValue digit]
    simp

theorem isDigit_of_between {c : Char} (h : '1' ≤ c ∧ c ≤ '9') : c.isDigit = true := by
  simp only [Char.isDigit, Bool.and_eq_true, decide_eq_true_eq, ge_iff_le]
  exact ⟨UInt32.le_trans (by decide) h.1, h.2⟩

theorem digits_ofDigits {ds : List Char} (h : Canonical ds) : digits (ofDigits ds) = ds := by
  rcases h with rfl | ⟨c, cs, rfl, first, rest⟩
  · rfl
  · have digit := isDigit_of_between first
    have value : ofDigits (c :: cs) =
        cs.foldl (fun n c => 10 * n + digitValue c) (digitValue c) := by
      rw [ofDigits, List.foldl_cons, Nat.mul_zero, Nat.zero_add]
    have pos : 1 ≤ digitValue c := by
      have low : 0x31 ≤ c.toNat := first.1
      unfold digitValue
      omega
    rw [digits_eq_toDigits, value, toDigits_foldl rest pos,
      Nat.toDigits_of_lt_base (digitValue_lt digit), digitChar_digitValue digit]
    rfl

/-! ## Numbers that are written -/

/-- The least number of more digits than a number of them. -/
def leastLonger (digits : Nat) : Nat := Nat.pow 10 digits

theorem leastLonger_pos (digits : Nat) : 1 ≤ leastLonger digits := Nat.pow_pos (by decide)

theorem leastLonger_mono {few more : Nat} (h : few ≤ more) : leastLonger few ≤ leastLonger more :=
  Nat.pow_le_pow_right (by decide) h

/-- A number of at most `mostDigits` digits. -/
def Writable (n : Nat) : Prop := n < leastLonger mostDigits

instance (n : Nat) : Decidable (Writable n) := inferInstanceAs (Decidable (n < _))

theorem not_writable_leastLonger : ¬ Writable (leastLonger mostDigits) :=
  Nat.lt_irrefl (leastLonger mostDigits)

theorem writable_of_lt {n : Nat} (digits : Nat) (few : digits ≤ mostDigits)
    (small : n < leastLonger digits) : Writable n :=
  Nat.lt_of_lt_of_le small (leastLonger_mono few)

theorem length_digits_of_small {n : Nat} (small : n < 10) : (digits n).length = 1 := by
  rw [digits_eq_toDigits, Nat.toDigits_of_lt_base small]
  rfl

theorem length_digits_of_large {n : Nat} (large : 10 ≤ n) :
    (digits n).length = (digits (n / 10)).length + 1 := by
  rw [digits_eq_toDigits, digits_eq_toDigits, Nat.toDigits_of_base_le (by decide) large]
  simp

theorem length_digits_le_iff {n k : Nat} (some_digit : 1 ≤ k) :
    (digits n).length ≤ k ↔ n < leastLonger k := by
  induction some_digit generalizing n with
  | refl =>
    have ten : leastLonger 1 = 10 := rfl
    by_cases small : n < 10
    · rw [length_digits_of_small small]
      omega
    · have more := length_digits_of_large (Nat.le_of_not_lt small)
      have front : 1 ≤ (digits (n / 10)).length := Nat.length_repr_pos
      omega
  | @step k _ ih =>
    have power : leastLonger k.succ = leastLonger k * 10 := rfl
    have positive := leastLonger_pos k
    by_cases small : n < 10
    · rw [length_digits_of_small small]
      omega
    · have front := ih (n := n / 10)
      rw [length_digits_of_large (Nat.le_of_not_lt small)]
      omega

/-- **The numbers that are written are those of at most `mostDigits` digits.** -/
theorem written?_eq_some_iff {n : Nat} {text : String} :
    written? n = some text ↔ Writable n ∧ text = toString n := by
  have short : (toString (n : Int).natAbs).length ≤ mostDigits ↔ Writable n :=
    length_digits_le_iff (by decide)
  unfold written?
  by_cases writable : Writable n
  · rw [if_pos (short.mpr writable), Option.some.injEq, and_iff_right writable, eq_comm]
    rfl
  · rw [if_neg (mt short.mp writable)]
    exact iff_of_false nofun fun h => writable h.1

theorem written?_eq_none_iff {n : Nat} : written? n = none ↔ ¬ Writable n := by
  rw [Option.eq_none_iff_forall_ne_some]
  simp only [ne_eq, written?_eq_some_iff, not_and]
  exact ⟨fun h writable => h _ writable rfl, fun h _ writable => absurd writable h⟩

end NotaryNetwork.Text
