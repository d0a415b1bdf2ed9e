import NotaryNetwork.Name.Separator

/-!
# Squeezing is scanning

The two ways of taking out the blanks after separators agree (`squeeze_eq_scan`): looking at every
place for an even run of backslashes, a comma and blanks finds exactly the commas that stand in no
unit of a scan from left to right.

A text is sealed if a scan copies it whatever follows. Sealed texts with commas and blanks behind
them are left with bare commas (`scan_leading`).
-/

namespace NotaryNetwork.Name

open Text (isBlank)

/-! ## Pairs of backslashes -/

theorem takePairs_append (cs : List Char) : (takePairs cs).1 ++ (takePairs cs).2 = cs := by
  fun_induction takePairs cs with
  | case1 cs pairs rest h ih => rw [h] at ih; simp [← ih]
  | case2 => rfl

/-- The rest after the pairs starts with no pair. -/
theorem takePairs_rest (cs : List Char) : takePairs (takePairs cs).2 = ([], (takePairs cs).2) := by
  fun_induction takePairs cs with
  | case1 cs pairs rest h ih => rw [h] at ih; exact ih
  | case2 cs h => rw [takePairs]; exact h

theorem scanFrom_takePairs (cs : List Char) :
    scanFrom false cs = (takePairs cs).1 ++ scanFrom false (takePairs cs).2 := by
  fun_induction takePairs cs with
  | case1 cs pairs rest h ih => rw [h] at ih; simp [scanFrom, ih]
  | case2 => rfl

/-- Backslashes that follow a backslash are copied. -/
theorem squeezeFrom_takePairs (cs : List Char) :
    squeezeFrom true 0 cs = (takePairs cs).1 ++ squeezeFrom true 0 (takePairs cs).2 := by
  fun_induction takePairs cs with
  | case1 cs pairs rest h ih => rw [h] at ih; simp [squeezeFrom, ih]
  | case2 => rfl

theorem squeezeFrom_skip (before : Bool) (skipped : List Char) (c : Char) (rest : List Char) :
    squeezeFrom before (skipped.length + 1) (skipped ++ c :: rest) =
      squeezeFrom (c = '\\') 0 rest := by
  induction skipped generalizing before with
  | nil => rw [List.length_nil, List.nil_append, squeezeFrom]
  | cons d ds ih => rw [List.length_cons, List.cons_append, squeezeFrom, ih]

/-! ## Blanks after a separator -/

theorem not_isBlank_backslash : isBlank '\\' = false := by decide

theorem not_isBlank_comma : isBlank ',' = false := by decide

theorem scanFrom_cons {c : Char} (h : c ≠ '\\') (h' : c ≠ ',') (dropping : Bool) (cs : List Char) :
    scanFrom dropping (c :: cs) =
      if dropping && isBlank c then scanFrom true cs else c :: scanFrom false cs := by
  rw [scanFrom]
  · exact fun e _ => h e
  · exact fun _ _ e _ => h e
  · exact h'

/-- Where no blank comes next, it does not matter whether blanks are dropped. -/
theorem scanFrom_of_not_blank {c : Char} (h : isBlank c = false) (cs : List Char) :
    scanFrom true (c :: cs) = scanFrom false (c :: cs) := by
  by_cases back : c = '\\'
  · subst back
    cases cs <;> rfl
  · by_cases comma : c = ','
    · subst comma; rfl
    · rw [scanFrom_cons back comma, scanFrom_cons back comma, h]
      rfl

theorem scanFrom_true (cs : List Char) :
    scanFrom true cs = scanFrom false (cs.dropWhile isBlank) := by
  induction cs with
  | nil => rfl
  | cons c cs ih =>
    cases h : isBlank c with
    | true =>
      have back : c ≠ '\\' := by rintro rfl; rw [not_isBlank_backslash] at h; cases h
      have comma : c ≠ ',' := by rintro rfl; rw [not_isBlank_comma] at h; cases h
      rw [scanFrom_cons back comma, h, List.dropWhile_cons_of_pos h, ← ih]
      rfl
    | false => rw [scanFrom_of_not_blank h, List.dropWhile_cons_of_neg (by simp [h])]

/-! ## Both ways agree -/

/-- What it means that a separator with blanks starts at a place. -/
theorem separator?_eq_some {cs kept : List Char} {length : Nat}
    (h : separator? cs = some (kept, length)) :
    ∃ pairs more, takePairs cs = (pairs, ',' :: more) ∧ more.takeWhile isBlank ≠ [] ∧
      kept = pairs ++ [','] ∧ length = pairs.length + 1 + (more.takeWhile isBlank).length := by
  unfold separator? at h
  split at h
  · rename_i pairs more e
    split at h
    · cases h
    · rename_i blanks some_blank
      cases h
      exact ⟨pairs, more, e, by simpa using some_blank, rfl, rfl⟩
  · cases h

/-- What it means that none does. -/
theorem takeWhile_of_separator? {cs rest : List Char} (h : separator? cs = none)
    (e : (takePairs cs).2 = ',' :: rest) : rest.takeWhile isBlank = [] := by
  unfold separator? at h
  rw [show takePairs cs = ((takePairs cs).1, (takePairs cs).2) from rfl, e] at h
  cases blanks : rest.takeWhile isBlank with
  | nil => rfl
  | cons b bs => simp [blanks] at h

theorem dropWhile_of_takeWhile {cs : List Char} (h : cs.takeWhile isBlank = []) :
    cs.dropWhile isBlank = cs := by
  have whole := List.takeWhile_append_dropWhile (p := isBlank) (l := cs)
  rwa [h, List.nil_append] at whole

theorem squeezeFrom_of_none {cs : List Char} (h : separator? cs = none) :
    squeezeFrom false 0 cs = squeezeFrom true 0 cs := by
  cases cs with
  | nil => rfl
  | cons c cs => rw [squeezeFrom, squeezeFrom, h]

/-- A separator is written and the blanks after it are left out. -/
theorem squeezeFrom_of_some {cs pairs more : List Char}
    (e : takePairs cs = (pairs, ',' :: more)) (some_blank : more.takeWhile isBlank ≠ []) :
    squeezeFrom false 0 cs = pairs ++ ',' :: squeezeFrom false 0 (more.dropWhile isBlank) := by
  have found : separator? cs =
      some (pairs ++ [','], pairs.length + 1 + (more.takeWhile isBlank).length) := by
    unfold separator?
    rw [e]
    split <;> simp_all
  -- The skip ends at the last blank, which is no backslash, so the rest is read afresh.
  obtain ⟨init, last, blanks⟩ :=
    (List.eq_nil_or_concat (more.takeWhile isBlank)).resolve_left some_blank
  have last_ne : last ≠ '\\' := by
    rintro rfl
    have all := List.all_takeWhile (p := isBlank) (l := more)
    rw [blanks] at all
    simp [not_isBlank_backslash] at all
  obtain ⟨c, skipped, start⟩ :=
    List.exists_cons_of_ne_nil (l := pairs ++ ',' :: init) (by simp)
  have split : more = init ++ last :: more.dropWhile isBlank := by
    have both := List.takeWhile_append_dropWhile (p := isBlank) (l := more)
    rw [blanks] at both
    simpa using both.symm
  have whole : cs = c :: (skipped ++ last :: more.dropWhile isBlank) := by
    have joined := takePairs_append cs
    rw [e] at joined
    rw [← List.cons_append, ← start, List.append_assoc, List.cons_append, ← split, joined]
  have count : pairs.length + 1 + (more.takeWhile isBlank).length - 1 = skipped.length + 1 := by
    have := congrArg List.length start
    simp only [List.length_append, List.length_cons] at this
    rw [blanks, List.concat_eq_append, List.length_append, List.length_singleton]
    omega
  rw [whole] at found ⊢
  rw [squeezeFrom, found]
  simp only [count, squeezeFrom_skip, last_ne, decide_false, List.append_assoc, List.cons_append,
    List.nil_append]

/-- At a place where no pair starts and no separator is written one unit is copied, and both go on
behind it. -/
theorem squeezeFrom_unit {cs : List Char}
    (ih : ∀ ds : List Char, ds.length < cs.length → squeezeFrom false 0 ds = scanFrom false ds)
    (unpaired : takePairs cs = ([], cs))
    (bare : ∀ rest, cs = ',' :: rest → rest.takeWhile isBlank = []) :
    squeezeFrom true 0 cs = scanFrom false cs := by
  cases cs with
  | nil => simp [squeezeFrom, scanFrom]
  | cons c cs =>
    have next := ih cs (Nat.lt_succ_self _)
    rw [squeezeFrom]
    by_cases back : c = '\\'
    · subst back
      cases cs with
      | nil => rfl
      | cons d ds =>
        have other : d ≠ '\\' := by rintro rfl; simp [takePairs] at unpaired
        have behind := ih ds (by simp only [List.length_cons]; omega)
        simp [squeezeFrom, scanFrom, other, behind]
    · by_cases comma : c = ','
      · subst comma
        have stays := dropWhile_of_takeWhile (bare cs rfl)
        simp [scanFrom, scanFrom_true, stays, next]
      · rw [scanFrom_cons back comma]
        simp [back, next]

theorem squeezeFrom_eq_scanFrom (cs : List Char) : squeezeFrom false 0 cs = scanFrom false cs := by
  -- One step takes a whole run of backslashes or a separator, so the induction is on the length.
  induction h : cs.length using Nat.strongRecOn generalizing cs with
  | _ n ih =>
    subst h
    have go : ∀ ds : List Char, ds.length < cs.length →
        squeezeFrom false 0 ds = scanFrom false ds :=
      fun ds less => ih ds.length less ds rfl
    have whole := congrArg List.length (takePairs_append cs)
    rw [List.length_append] at whole
    rw [scanFrom_takePairs]
    cases found : separator? cs with
    | none =>
      rw [squeezeFrom_of_none found, squeezeFrom_takePairs]
      congr 1
      exact squeezeFrom_unit (fun ds less => go ds (by omega)) (takePairs_rest cs)
        (fun rest e => takeWhile_of_separator? found e)
    | some sep =>
      obtain ⟨pairs, more, e, some_blank, -, -⟩ := separator?_eq_some found
      have shorter : (more.dropWhile isBlank).length ≤ more.length :=
        (List.dropWhile_suffix isBlank).length_le
      rw [e, List.length_cons] at whole
      rw [squeezeFrom_of_some e some_blank, e, go _ (by omega)]
      simp [scanFrom, scanFrom_true]

/-- **Squeezing is scanning.** -/
theorem squeeze_eq_scan (cs : List Char) : squeeze cs = scan cs :=
  squeezeFrom_eq_scanFrom cs

/-! ## Sealed texts -/

/-- A text that a scan copies whatever follows: it is made of whole units and has no comma outside
of them. -/
def Sealed (p : List Char) : Prop :=
  ∀ rest, scanFrom false (p ++ rest) = p ++ scanFrom false rest

namespace Sealed

theorem nil : Sealed [] := fun _ => rfl

theorem scan {p : List Char} (h : Sealed p) : scan p = p := by
  have copied := h []
  rwa [List.append_nil, scanFrom, List.append_nil] at copied

theorem append {p q : List Char} (hp : Sealed p) (hq : Sealed q) : Sealed (p ++ q) := by
  intro rest
  rw [List.append_assoc, hp, hq, List.append_assoc]

theorem single {c : Char} (back : c ≠ '\\') (comma : c ≠ ',') : Sealed [c] := by
  intro rest
  rw [List.singleton_append, scanFrom_cons back comma]
  rfl

theorem unit (c : Char) : Sealed ['\\', c] := fun _ => by simp [scanFrom]

theorem of_plain {p : List Char} (back : '\\' ∉ p) (comma : ',' ∉ p) : Sealed p := by
  induction p with
  | nil => exact nil
  | cons c cs ih =>
    rw [List.mem_cons, not_or] at back comma
    exact (single (Ne.symm back.1) (Ne.symm comma.1)).append (ih back.2 comma.2)

theorem flatMap {α : Type} {f : α → List Char} {xs : List α} (h : ∀ x ∈ xs, Sealed (f x)) :
    Sealed (xs.flatMap f) := by
  induction xs with
  | nil => exact nil
  | cons x xs ih =>
    rw [List.flatMap_cons]
    exact (h x List.mem_cons_self).append (ih fun y hy => h y (List.mem_cons_of_mem x hy))

end Sealed

/-! ## Texts with commas behind them -/

/-- Texts that another one follows, each with a comma and a gap behind it. -/
def leading : List (List Char × List Char) → List Char
  | [] => []
  | (p, gap) :: rest => p ++ ',' :: (gap ++ leading rest)

/-- A text that does not start with a blank. -/
def StartsDark (p : List Char) : Prop := ∃ c cs, p = c :: cs ∧ isBlank c = false

theorem StartsDark.append {p : List Char} (h : StartsDark p) (q : List Char) :
    StartsDark (p ++ q) := by
  obtain ⟨c, cs, rfl, dark⟩ := h
  exact ⟨c, cs ++ q, rfl, dark⟩

theorem startsDark_leading {parts : List (List Char × List Char)}
    (dark : ∀ part ∈ parts, StartsDark part.1) {rest : List Char} (h : StartsDark rest) :
    StartsDark (leading parts ++ rest) := by
  cases parts with
  | nil => exact h
  | cons part parts =>
    rw [leading, List.append_assoc]
    exact (dark part List.mem_cons_self).append _

theorem scanFrom_gap {gap p : List Char} (blank : ∀ c ∈ gap, isBlank c = true)
    (dark : StartsDark p) : scanFrom true (gap ++ p) = scanFrom false p := by
  obtain ⟨c, cs, rfl, h⟩ := dark
  rw [scanFrom_true, List.dropWhile_append_of_pos blank,
    List.dropWhile_cons_of_neg (by simp [h])]

/-- Blanks after the commas behind sealed texts are taken out. -/
theorem scan_leading {parts : List (List Char × List Char)}
    (blank : ∀ part ∈ parts, ∀ c ∈ part.2, isBlank c = true)
    (closed : ∀ part ∈ parts, Sealed part.1 ∧ StartsDark part.1) {rest : List Char}
    (dark : StartsDark rest) :
    scan (leading parts ++ rest) =
      leading (parts.map fun part => (part.1, [])) ++ scan rest := by
  unfold scan
  induction parts with
  | nil => rfl
  | cons part parts ih =>
    obtain ⟨p, gap⟩ := part
    have others := fun part h => closed part (List.mem_cons_of_mem (p, gap) h)
    have behind := ih (fun part h => blank part (List.mem_cons_of_mem _ h)) others
    have next := startsDark_leading (fun part h => (others part h).2) dark
    have sealed : Sealed p := (closed (p, gap) List.mem_cons_self).1
    rw [leading, List.append_assoc, List.cons_append, List.append_assoc, sealed, scanFrom,
      scanFrom_gap (blank _ List.mem_cons_self) next, behind, List.map_cons, leading]
    simp

end NotaryNetwork.Name
