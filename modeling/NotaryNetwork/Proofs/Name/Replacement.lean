import Mathlib.Data.List.Induction
import NotaryNetwork.Proofs.Name.Separator
import NotaryNetwork.Proofs.Name.Units

/-!
# Replacing separators

The pattern of a separator: no backslash before it, any number of pairs of backslashes, a comma and at
least one blank. `Replaces` is the replacement of a text from left to right, each match as long as it
can be and written without its blanks. A text has exactly one replacement, the squeezed text
(`replaces_iff`), and so the scanned one.

Squeezing leaves out blanks only: all those behind a comma that is not escaped, and none behind an
escaped one. A second time it changes nothing (`tidies_squeeze`). The pattern tells whether a comma is
escaped by the backslashes right before it, a scan by its units from the start of the text; the two
agree (`escapes_iff`).
-/

namespace NotaryNetwork.Name

open Text (isBlank)

/-! ## The pattern -/

/-- Backslashes, two at a time. -/
def pairs : Nat → List Char
  | 0 => []
  | n + 1 => '\\' :: '\\' :: pairs n

/-- A match of the separator pattern at the start of `cs`, which stands behind `before`: `n` pairs of
backslashes, a comma and the blanks `gap`, with `rest` after them. -/
structure SeparatorAt (before cs : List Char) (n : Nat) (gap rest : List Char) : Prop where
  behind : before.getLast? ≠ some '\\'
  spelled : cs = pairs n ++ ',' :: (gap ++ rest)
  filled : gap ≠ []
  blank : ∀ c ∈ gap, isBlank c = true

/-- `Replaces before cs out`: the text `cs`, which stands behind `before`, becomes `out` when its
separators are replaced from left to right. -/
inductive Replaces : List Char → List Char → List Char → Prop
  | done {before : List Char} : Replaces before [] []
  /-- The longest match is written without its blanks, and the replacement goes on behind it. -/
  | separator {before cs gap rest out : List Char} {n : Nat}
      (found : SeparatorAt before cs n gap rest)
      (longest : ∀ m gap' rest', SeparatorAt before cs m gap' rest' → gap'.length ≤ gap.length)
      (behind : Replaces (before ++ (pairs n ++ ',' :: gap)) rest out) :
      Replaces before cs (pairs n ++ ',' :: out)
  /-- A character where no match starts is copied. -/
  | copy {before cs out : List Char} {c : Char}
      (free : ∀ n gap rest, ¬ SeparatorAt before (c :: cs) n gap rest)
      (behind : Replaces (before ++ [c]) cs out) : Replaces before (c :: cs) (c :: out)

theorem takePairs_pairs (n : Nat) (more : List Char) :
    takePairs (pairs n ++ ',' :: more) = (pairs n, ',' :: more) := by
  induction n with
  | zero => simp [pairs, takePairs]
  | succ n ih => simp [pairs, takePairs, ih]

theorem exists_pairs (cs : List Char) : ∃ n, (takePairs cs).1 = pairs n := by
  fun_induction takePairs cs with
  | case1 cs front rest h ih =>
    obtain ⟨n, e⟩ := ih
    rw [h] at e
    exact ⟨n + 1, by rw [pairs, ← e]⟩
  | case2 => exact ⟨0, rfl⟩

namespace SeparatorAt

variable {before cs gap rest : List Char} {n : Nat}

/-- The comma ends the backslashes, so all matches at a place have the same ones. -/
theorem takePairs_eq (h : SeparatorAt before cs n gap rest) :
    takePairs cs = (pairs n, ',' :: (gap ++ rest)) := by
  rw [h.spelled, takePairs_pairs]

/-- A match can be extended to all the blanks behind its comma. -/
theorem extend (h : SeparatorAt before cs n gap rest) :
    SeparatorAt before cs n ((gap ++ rest).takeWhile isBlank)
      ((gap ++ rest).dropWhile isBlank) where
  behind := h.behind
  spelled := by rw [List.takeWhile_append_dropWhile, h.spelled]
  filled := by simp [List.takeWhile_append_of_pos h.blank, h.filled]
  blank := List.all_eq_true.mp List.all_takeWhile

theorem exists_longest (h : SeparatorAt before cs n gap rest) :
    ∃ gap' rest', SeparatorAt before cs n gap' rest' ∧ (gap' ++ rest').takeWhile isBlank = gap' :=
  ⟨_, _, h.extend, by rw [List.takeWhile_append_dropWhile]⟩

/-- The longest match is the one that takes all the blanks behind its comma. -/
theorem longest_iff (h : SeparatorAt before cs n gap rest) :
    (∀ m gap' rest', SeparatorAt before cs m gap' rest' → gap'.length ≤ gap.length) ↔
      (gap ++ rest).takeWhile isBlank = gap := by
  constructor
  · intro longest
    have bound := longest _ _ _ h.extend
    rw [List.takeWhile_append_of_pos h.blank, List.length_append] at bound
    have ends : rest.takeWhile isBlank = [] := List.eq_nil_of_length_eq_zero (by omega)
    rw [List.takeWhile_append_of_pos h.blank, ends, List.append_nil]
  · intro all m gap' rest' other
    have same := h.takePairs_eq.symm.trans other.takePairs_eq
    simp only [Prod.mk.injEq, List.cons.injEq, true_and] at same
    rw [same.2, List.takeWhile_append_of_pos other.blank] at all
    rw [← all, List.length_append]
    exact Nat.le_add_right _ _

/-- A match ends with a blank, so the next one may start right behind it. -/
theorem getLast?_ne (h : SeparatorAt before cs n gap rest) :
    (before ++ (pairs n ++ ',' :: gap)).getLast? ≠ some '\\' := by
  obtain ⟨init, last, rfl⟩ := (List.eq_nil_or_concat gap).resolve_left h.filled
  have blank := h.blank last (by simp)
  rw [List.concat_eq_append, ← List.cons_append, ← List.append_assoc, ← List.append_assoc,
    List.getLast?_concat]
  rintro ⟨rfl⟩
  rw [not_isBlank_backslash] at blank
  cases blank

end SeparatorAt

/-- What the search for a separator finds is a match. -/
theorem exists_separatorAt {before cs kept : List Char} {length : Nat}
    (behind : before.getLast? ≠ some '\\') (h : separator? cs = some (kept, length)) :
    ∃ n gap rest, SeparatorAt before cs n gap rest := by
  obtain ⟨_, more, e, some_blank, -, -⟩ := separator?_eq_some h
  obtain ⟨n, front⟩ := exists_pairs cs
  have joined := takePairs_append cs
  rw [e] at front joined
  obtain rfl : _ = pairs n := front
  refine ⟨n, more.takeWhile isBlank, more.dropWhile isBlank, behind, ?_, some_blank, ?_⟩
  · rw [List.takeWhile_append_dropWhile, joined]
  · exact List.all_eq_true.mp List.all_takeWhile

/-! ## The replacement is squeezing -/

/-- Squeezing from a place on, with the text before it. -/
def squeezeBehind (before cs : List Char) : List Char :=
  squeezeFrom (before.getLast? = some '\\') 0 cs

theorem squeezeBehind_nil (cs : List Char) : squeezeBehind [] cs = squeeze cs := rfl

/-- The longest match is written without its blanks. -/
theorem SeparatorAt.squeezeBehind_eq {before cs gap rest : List Char} {n : Nat}
    (h : SeparatorAt before cs n gap rest) (all : (gap ++ rest).takeWhile isBlank = gap) :
    squeezeBehind before cs =
      pairs n ++ ',' :: squeezeBehind (before ++ (pairs n ++ ',' :: gap)) rest := by
  have whole := List.takeWhile_append_dropWhile (p := isBlank) (l := gap ++ rest)
  rw [all] at whole
  have dropped : (gap ++ rest).dropWhile isBlank = rest := List.append_cancel_left whole
  have written := squeezeFrom_of_some h.takePairs_eq (by rw [all]; exact h.filled)
  rw [dropped] at written
  unfold squeezeBehind
  rw [decide_eq_false h.behind, decide_eq_false h.getLast?_ne, written]

/-- Where no match starts a character is copied. -/
theorem squeezeBehind_cons {before cs : List Char} {c : Char}
    (free : ∀ n gap rest, ¬ SeparatorAt before (c :: cs) n gap rest) :
    squeezeBehind before (c :: cs) = c :: squeezeBehind (before ++ [c]) cs := by
  unfold squeezeBehind
  rw [List.getLast?_concat]
  by_cases behind : before.getLast? = some '\\'
  · simp [behind, squeezeFrom]
  · cases found : separator? (c :: cs) with
    | none => simp [behind, squeezeFrom, found]
    | some sep =>
      obtain ⟨n, gap, rest, h⟩ := exists_separatorAt behind found
      exact absurd h (free n gap rest)

theorem Replaces.eq_squeezeBehind {before cs out : List Char} (h : Replaces before cs out) :
    out = squeezeBehind before cs := by
  induction h with
  | done => rfl
  | separator found longest _ ih =>
    rw [found.squeezeBehind_eq (found.longest_iff.mp longest), ← ih]
  | copy free _ ih => rw [squeezeBehind_cons free, ← ih]

theorem replaces_squeezeBehind (before cs : List Char) :
    Replaces before cs (squeezeBehind before cs) := by
  -- A match takes several characters at once, so the induction is on the length.
  induction h : cs.length using Nat.strongRecOn generalizing before cs with
  | _ length ih =>
    subst h
    cases cs with
    | nil => exact .done
    | cons c cs =>
      by_cases found : ∃ n gap rest, SeparatorAt before (c :: cs) n gap rest
      · obtain ⟨n, _, _, found⟩ := found
        obtain ⟨gap, rest, h, all⟩ := found.exists_longest
        have shorter : rest.length < (c :: cs).length := by
          rw [h.spelled]
          simp only [List.length_append, List.length_cons]
          omega
        rw [h.squeezeBehind_eq all]
        exact .separator h (h.longest_iff.mpr all) (ih _ shorter _ _ rfl)
      · have free : ∀ n gap rest, ¬ SeparatorAt before (c :: cs) n gap rest :=
          fun n gap rest h => found ⟨n, gap, rest, h⟩
        rw [squeezeBehind_cons free]
        exact .copy free (ih _ (Nat.lt_succ_self _) _ _ rfl)

/-- **A text has one replacement, the squeezed text.** -/
theorem replaces_iff {cs out : List Char} : Replaces [] cs out ↔ out = squeeze cs := by
  rw [← squeezeBehind_nil]
  constructor
  · exact Replaces.eq_squeezeBehind
  · rintro rfl
    exact replaces_squeezeBehind [] cs

/-! ## Escaped places -/

/-- Whether the character behind a text is escaped: the backslashes that the text ends with are odd in
number. -/
def Escapes (before : List Char) : Prop :=
  (before.reverse.takeWhile (· = '\\')).length % 2 = 1

instance : DecidablePred Escapes := fun _ => inferInstanceAs (Decidable (_ = _))

/-- The places that are escaped are those inside of a unit. -/
theorem escapes_iff {before : List Char} : Escapes before ↔ ¬ Whole before := by
  -- One more backslash changes the parity, and any other character ends the backslashes.
  induction before using List.reverseRecOn with
  | nil => simp [Escapes, Whole]
  | append_singleton before c ih =>
    rw [Whole.concat_iff, ← ih]
    unfold Escapes
    rw [List.reverse_concat, List.takeWhile_cons]
    by_cases back : c = '\\'
    · simp only [back, decide_true, if_true, List.length_cons, forall_const]
      omega
    · simp [back]

example : Escapes "Dock\\".toList ∧ ¬ Escapes "Dock\\\\".toList := by decide

/-! ## What a scan leaves out -/

theorem sublist_scanFrom (dropping : Bool) (cs : List Char) :
    (scanFrom dropping cs).Sublist cs := by
  fun_induction scanFrom dropping cs with
  | case1 => exact .refl _
  | case2 => exact .refl _
  | case3 _ c cs ih => exact (ih.cons_cons c).cons_cons '\\'
  | case4 _ cs ih => exact ih.cons_cons ','
  | case5 _ c cs _ _ _ _ ih => exact ih.cons c
  | case6 _ c cs _ _ _ _ ih => exact ih.cons_cons c

/-- What is no blank stays. -/
theorem filter_scanFrom (dropping : Bool) (cs : List Char) :
    (scanFrom dropping cs).filter (!isBlank ·) = cs.filter (!isBlank ·) := by
  fun_induction scanFrom dropping cs with
  | case1 => rfl
  | case2 => rfl
  | case3 _ c cs ih => simp only [List.filter_cons, ih]
  | case4 _ cs ih => simp only [List.filter_cons, ih]
  | case5 _ c cs _ _ _ dropped ih =>
    have blank : isBlank c = true := (Bool.and_eq_true_iff.mp dropped).2
    rw [ih, List.filter_cons_of_neg (by simp [blank])]
  | case6 _ c cs _ _ _ _ ih => simp only [List.filter_cons, ih]

/-- The last case of a scan is about no backslash. -/
theorem ne_backslash {c : Char} {cs : List Char} (lone : c = '\\' → cs = [] → False)
    (unit : ∀ d ds, c = '\\' → cs = d :: ds → False) : c ≠ '\\' := by
  intro back
  cases cs with
  | nil => exact lone back rfl
  | cons d ds => exact unit d ds back rfl

theorem scanFrom_scanFrom (dropping : Bool) (cs : List Char) :
    scanFrom dropping (scanFrom dropping cs) = scanFrom dropping cs := by
  fun_induction scanFrom dropping cs with
  | case1 => rfl
  | case2 => rfl
  | case3 _ c cs ih => rw [scanFrom, ih]
  | case4 _ cs ih => rw [scanFrom, ih]
  | case5 dropping c cs _ _ _ dropped ih =>
    -- Both scans are dropping blanks here, so the second goes on as the first does.
    obtain rfl : dropping = true := (Bool.and_eq_true_iff.mp dropped).1
    exact ih
  | case6 dropping c cs lone unit comma kept ih =>
    rw [scanFrom_cons (ne_backslash lone unit) comma, if_neg kept, ih]

/-- Behind a comma a scan drops blanks if the comma stands in no unit. -/
theorem scanFrom_comma {before : List Char} {separates : Bool}
    (h : separates = true ↔ Whole before) (dropping : Bool) (rest : List Char) :
    scanFrom dropping (before ++ ',' :: rest) =
      scanFrom dropping before ++ ',' :: scanFrom separates rest := by
  fun_induction scanFrom dropping before with
  | case1 =>
    obtain rfl : separates = true := h.mpr rfl
    rfl
  | case2 =>
    obtain rfl : separates = false := by simpa [Whole] using h
    rfl
  | case3 _ c cs ih =>
    have behind := ih (h.trans Whole.unit_append_iff)
    simp only [List.cons_append, scanFrom, behind]
  | case4 _ cs ih =>
    have behind := ih (h.trans (Whole.cons_iff (by decide)))
    simp only [List.cons_append, scanFrom, behind]
  | case5 dropping c cs lone unit comma dropped ih =>
    have back := ne_backslash lone unit
    have behind := ih (h.trans (Whole.cons_iff back))
    rw [List.cons_append, scanFrom_cons back comma, if_pos dropped, behind]
  | case6 dropping c cs lone unit comma kept ih =>
    have back := ne_backslash lone unit
    have behind := ih (h.trans (Whole.cons_iff back))
    rw [List.cons_append, scanFrom_cons back comma, if_neg kept, behind, List.cons_append]

theorem sealed_of_blank {gap : List Char} (blank : ∀ c ∈ gap, isBlank c = true) : Sealed gap := by
  apply Sealed.of_plain
  · intro back
    exact absurd (blank _ back) (by simp [not_isBlank_backslash])
  · intro comma
    exact absurd (blank _ comma) (by simp [not_isBlank_comma])

/-- Behind a comma that is not escaped a scan leaves out all blanks. -/
theorem scan_of_separator {before : List Char} (plain : ¬ Escapes before) (rest : List Char) :
    scan (before ++ ',' :: rest) = scan before ++ ',' :: scan (rest.dropWhile isBlank) := by
  have whole : Whole before := by rwa [escapes_iff, not_not] at plain
  unfold scan
  rw [scanFrom_comma (iff_of_true rfl whole), scanFrom_true]

/-- Behind an escaped comma a scan leaves out none. -/
theorem scan_of_escaped {before gap : List Char} (escapes : Escapes before)
    (blank : ∀ c ∈ gap, isBlank c = true) (rest : List Char) :
    scan (before ++ ',' :: (gap ++ rest)) = scan before ++ ',' :: (gap ++ scan rest) := by
  have inside : ¬ Whole before := escapes_iff.mp escapes
  unfold scan
  rw [scanFrom_comma (iff_of_false Bool.false_ne_true inside), sealed_of_blank blank]

/-! ## What squeezing leaves out -/

/-- What a text comes to when the blanks after its separators are taken out. -/
structure Tidies (cs out : List Char) : Prop where
  /-- It is the one replacement of the text, -/
  replaced : ∀ other, Replaces [] cs other ↔ other = out
  /-- and what a scan of its units leaves. -/
  scanned : out = scan cs
  /-- Characters are only left out, -/
  shorter : out.Sublist cs
  /-- and none but blanks are. -/
  dark : out.filter (!isBlank ·) = cs.filter (!isBlank ·)
  /-- Behind a comma that is not escaped all blanks are left out. -/
  separated : ∀ before rest, cs = before ++ ',' :: rest → ¬ Escapes before →
    out = squeeze before ++ ',' :: squeeze (rest.dropWhile isBlank)
  /-- Behind an escaped comma all of them stay. -/
  escaped : ∀ before gap rest, cs = before ++ ',' :: (gap ++ rest) → Escapes before →
    (∀ c ∈ gap, isBlank c = true) → out = squeeze before ++ ',' :: (gap ++ squeeze rest)
  /-- A second time nothing changes. -/
  settled : squeeze out = out

/-- **Squeezing replaces the separators of any text, as a scan of its units does, and leaves out
nothing but the blanks behind them.** -/
theorem tidies_squeeze (cs : List Char) : Tidies cs (squeeze cs) := by
  constructor
  case replaced => exact fun other => replaces_iff
  case scanned => exact squeeze_eq_scan cs
  case shorter =>
    rw [squeeze_eq_scan]
    exact sublist_scanFrom false cs
  case dark =>
    rw [squeeze_eq_scan]
    exact filter_scanFrom false cs
  case separated =>
    rintro before rest rfl plain
    simp only [squeeze_eq_scan]
    exact scan_of_separator plain rest
  case escaped =>
    rintro before gap rest rfl escapes blank
    simp only [squeeze_eq_scan]
    exact scan_of_escaped escapes blank rest
  case settled =>
    simp only [squeeze_eq_scan]
    exact scanFrom_scanFrom false cs

example : squeeze "O=Dock\\\\,  L=Mole\\,  \\\\\\,\tX, ,".toList =
    "O=Dock\\\\,L=Mole\\,  \\\\\\,\tX,,".toList := by decide

end NotaryNetwork.Name
