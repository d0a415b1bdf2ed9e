import NotaryNetwork.Name.Parser
import NotaryNetwork.Proofs.Outcome
import NotaryNetwork.Proofs.Table
import NotaryNetwork.Proofs.Text.Decimal

/-!
# Spellings of types

A type is spelled by its short name or by its arcs with points between them, if these make an
identifier (`TypeText`). Reading a type takes just such a spelling off the text, up to the equals
sign after it (`readType_eq_ok_iff`).
-/

namespace NotaryNetwork.Name

open Text (digits Canonical isDecimalDigit ofDigits)

/-- The spellings of a type. -/
inductive TypeText (type : Oid) : List Char → Prop
  | short {name : String} (h : (name, type) ∈ shortNames) : TypeText type name.toList
  | dotted (h : Oid.ofArcs? type.arcs = some type) : TypeText type type.dotted.toList

/-! ## Arcs -/

/-- Arcs that follow another one. -/
def pointed (arcs : List (List Char)) : List Char := arcs.flatMap ('.' :: ·)

theorem toList_dotted (n : Nat) (ns : List Nat) :
    (Oid.dotted ⟨n :: ns⟩).toList = digits n ++ pointed (ns.map digits) := by
  unfold Oid.dotted
  rw [String.toList_intercalate, List.map_map]
  induction ns generalizing n with
  | nil => simp [pointed, digits]
  | cons m ms ih =>
    rw [List.map_cons, List.map_cons, List.intercalate_cons_cons, ← List.map_cons, ih]
    simp [pointed, digits]

/-- The form of an arc as it is taken: a zero stands alone. -/
def ArcShape (arc : List Char) : Prop :=
  ∃ c cs, arc = c :: cs ∧ startsArc c = true ∧ (c = '0' → cs = [])

theorem ArcShape.append {arc : List Char} (h : ArcShape arc) (more : arc ≠ ['0']) (c : Char) :
    ArcShape (arc ++ [c]) := by
  obtain ⟨d, ds, rfl, starts, zero⟩ := h
  refine ⟨d, ds ++ [c], rfl, starts, fun e => ?_⟩
  rw [e, zero e] at more
  exact absurd rfl more

theorem between_of_startsArc {c : Char} (h : startsArc c = true) (other : c ≠ '0') :
    '1' ≤ c ∧ c ≤ '9' := by
  unfold startsArc Char.isDigit at h
  simp only [Bool.and_eq_true, decide_eq_true_eq, ge_iff_le] at h
  have low : 0x30 ≤ c.toNat := h.1
  have zero : c.toNat ≠ 0x30 := by
    intro e
    apply other
    rw [← Char.ofNat_toNat c, e]
  refine ⟨?_, h.2⟩
  show 0x31 ≤ c.toNat
  omega

theorem ArcShape.canonical {arc : List Char} (h : ArcShape arc)
    (ascii : arc.all Char.isDigit = true) : Canonical arc := by
  obtain ⟨c, cs, rfl, starts, zero⟩ := h
  by_cases first : c = '0'
  · rw [first, zero first]
    exact .inl rfl
  · rw [List.all_cons, Bool.and_eq_true] at ascii
    exact .inr ⟨c, cs, rfl, between_of_startsArc starts first,
      fun d hd => List.all_eq_true.mp ascii.2 d hd⟩

/-! ## Taking arcs -/

theorem takeArcs_digit {c : Char} (digit : isDecimalDigit c = true) {arc : List Char}
    (more : arc ≠ ['0']) (cs : List Char) :
    takeArcs arc (c :: cs) = takeArcs (arc ++ [c]) cs := by
  cases cs <;> simp [takeArcs, digit, more]

/-- An arc that has been begun is taken to its end. -/
theorem takeArcs_rest {c : Char} {ds : List Char} (other : c ≠ '0')
    (all : ∀ d ∈ ds, d.isDigit = true) (arc rest : List Char) :
    takeArcs (c :: arc) (ds ++ rest) = takeArcs (c :: arc ++ ds) rest := by
  induction ds generalizing arc with
  | nil => simp
  | cons d ds ih =>
    have digit := Text.isDecimalDigit_of_isDigit (all d List.mem_cons_self)
    have more : c :: arc ≠ ['0'] := fun e => other (List.cons.inj e).1
    rw [List.cons_append, takeArcs_digit digit more, List.cons_append,
      ih fun e he => all e (List.mem_cons_of_mem d he)]
    simp

theorem takeArcs_digits (n : Nat) (rest : List Char) :
    ∃ c cs, digits n = c :: cs ∧ startsArc c = true ∧
      takeArcs [c] (cs ++ rest) = takeArcs (digits n) rest := by
  rcases Text.canonical_digits n with zero | ⟨c, cs, e, first, all⟩
  · exact ⟨'0', [], zero, by decide, by rw [zero]; rfl⟩
  · have other : c ≠ '0' := by
      rintro rfl
      exact absurd first.1 (by decide)
    refine ⟨c, cs, e, Text.isDigit_of_between first, ?_⟩
    rw [takeArcs_rest other all, e]
    rfl

theorem takeArcs_equals (arc rest : List Char) :
    takeArcs arc ('=' :: rest) = ([arc], '=' :: rest) := by
  have digit : isDecimalDigit '=' = false := by decide
  cases rest <;> simp [takeArcs, digit]

theorem takeArcs_point {d : Char} (starts : startsArc d = true) (arc cs : List Char) :
    takeArcs arc ('.' :: d :: cs) = (arc :: (takeArcs [d] cs).1, (takeArcs [d] cs).2) := by
  have digit : isDecimalDigit '.' = false := by decide
  simp [takeArcs, digit, starts]

/-- The arcs of numbers are taken up to the equals sign. -/
theorem takeArcs_pointed (arc : List Char) (ns : List Nat) (rest : List Char) :
    takeArcs arc (pointed (ns.map digits) ++ '=' :: rest) =
      (arc :: ns.map digits, '=' :: rest) := by
  induction ns generalizing arc with
  | nil => exact takeArcs_equals arc rest
  | cons n ns ih =>
    obtain ⟨c, cs, e, starts, begun⟩ :=
      takeArcs_digits n (pointed (ns.map digits) ++ '=' :: rest)
    have text : pointed ((n :: ns).map digits) ++ '=' :: rest =
        '.' :: c :: (cs ++ (pointed (ns.map digits) ++ '=' :: rest)) := by
      simp [pointed, e]
    rw [text, takeArcs_point starts, begun, ih, List.map_cons]

theorem takeOid?_dotted (n m : Nat) (ns : List Nat) (rest : List Char) :
    takeOid? ((Oid.dotted ⟨n :: m :: ns⟩).toList ++ '=' :: rest) =
      some ((n :: m :: ns).map digits, '=' :: rest) := by
  obtain ⟨c, cs, e, starts, begun⟩ :=
    takeArcs_digits n (pointed ((m :: ns).map digits) ++ '=' :: rest)
  rw [toList_dotted, List.append_assoc, e, List.cons_append, takeOid?, if_pos starts, begun,
    takeArcs_pointed]
  rfl

/-- What is taken are the arcs of the text, each of its form. -/
theorem takeArcs_eq {arc cs rest : List Char} {arcs : List (List Char)}
    (h : takeArcs arc cs = (arcs, rest)) (shape : ArcShape arc) :
    ∃ first more, arcs = (arc ++ first) :: more ∧ cs = first ++ pointed more ++ rest ∧
      ∀ a ∈ arcs, ArcShape a := by
  fun_induction takeArcs arc cs generalizing arcs rest with
  | case1 arc =>
    cases h
    exact ⟨[], [], by simp, rfl, by simpa using shape⟩
  | case2 arc c digit ih =>
    obtain ⟨first, more, e, text, shapes⟩ := ih h (shape.append digit.2 c)
    refine ⟨c :: first, more, ?_, ?_, shapes⟩
    · rw [e, List.append_assoc, List.singleton_append]
    · rw [List.cons_append, List.cons_append, ← text]
  | case3 arc c other =>
    cases h
    exact ⟨[], [], by simp, rfl, by simpa using shape⟩
  | case4 arc c d cs digit ih =>
    obtain ⟨first, more, e, text, shapes⟩ := ih h (shape.append digit.2 c)
    refine ⟨c :: first, more, ?_, ?_, shapes⟩
    · rw [e, List.append_assoc, List.singleton_append]
    · rw [List.cons_append, List.cons_append, ← text]
  | case5 arc c d cs other point arcs' rest' found ih =>
    cases h
    obtain ⟨rfl, starts⟩ := point
    obtain ⟨first, more, e, text, shapes⟩ := ih found ⟨d, [], rfl, starts, fun _ => rfl⟩
    refine ⟨[], arcs', by simp, ?_, ?_⟩
    · rw [e, text]
      simp [pointed]
    · intro a member
      rcases List.mem_cons.mp member with rfl | later
      · exact shape
      · exact shapes a later
  | case6 arc c d cs other point =>
    cases h
    exact ⟨[], [], by simp, rfl, by simpa using shape⟩

theorem takeOid?_eq_some {cs rest : List Char} {arcs : List (List Char)}
    (h : takeOid? cs = some (arcs, rest)) :
    ∃ first more, arcs = first :: more ∧ cs = first ++ pointed more ++ rest ∧
      ∀ a ∈ arcs, ArcShape a := by
  cases cs with
  | nil => cases h
  | cons c cs =>
    rw [takeOid?] at h
    split at h
    · rename_i starts
      have taken : takeArcs [c] cs = (arcs, rest) := by
        split at h
        · cases h
        · exact Option.some.inj h
      obtain ⟨first, more, e, text, shapes⟩ := takeArcs_eq taken ⟨c, [], rfl, starts, fun _ => rfl⟩
      refine ⟨[c] ++ first, more, e, ?_, shapes⟩
      rw [text]
      simp
    · cases h

/-! ## Identifiers -/

theorem arcValue?_digits (n : Nat) : arcValue? (digits n) = some n := by
  have ascii : (digits n).all Char.isDigit = true :=
    List.all_eq_true.mpr fun c hc => Text.isDigit_of_mem_digits hc
  rw [arcValue?, if_pos ascii, Text.ofDigits_digits]

theorem oidOfArcs?_digits (ns : List Nat) : oidOfArcs? (ns.map digits) = Oid.ofArcs? ns := by
  have values : (ns.map digits).mapM arcValue? = some ns := by
    rw [List.mapM_map]
    induction ns with
    | nil => rfl
    | cons n ns ih =>
      rw [List.mapM_cons, Function.comp_apply, arcValue?_digits, ih]
      rfl
  unfold oidOfArcs?
  rw [values]
  rfl

theorem mapM_arcValue? {arcs : List (List Char)} {ns : List Nat}
    (shapes : ∀ a ∈ arcs, ArcShape a) (h : arcs.mapM arcValue? = some ns) :
    arcs = ns.map digits := by
  induction arcs generalizing ns with
  | nil =>
    cases h
    rfl
  | cons arc arcs ih =>
    rw [List.mapM_cons] at h
    obtain ⟨n, value, h⟩ := Option.bind_eq_some_iff.mp h
    obtain ⟨ns, values, h⟩ := Option.bind_eq_some_iff.mp h
    cases h
    have later := ih (fun a ha => shapes a (List.mem_cons_of_mem arc ha)) values
    unfold arcValue? at value
    split at value
    · rename_i ascii
      cases value
      have canonical := (shapes arc List.mem_cons_self).canonical ascii
      rw [List.map_cons, Text.digits_ofDigits canonical, later]
    · cases value

theorem eq_of_ofArcs? {arcs : List Nat} {type : Oid} (h : Oid.ofArcs? arcs = some type) :
    type = ⟨arcs⟩ ∧ ∃ n m ns, arcs = n :: m :: ns := by
  unfold Oid.ofArcs? at h
  split at h
  · rename_i admitted
    cases h
    refine ⟨rfl, ?_⟩
    simp only [Bool.and_eq_true] at admitted
    match arcs, admitted.1.1 with
    | n :: m :: ns, _ => exact ⟨n, m, ns, rfl⟩
  · cases h

/-! ## Reading types -/

theorem takeType_shortName {name : String} {type : Oid} (h : (name, type) ∈ shortNames)
    (rest : List Char) : takeType (name.toList ++ '=' :: rest) = .ok (type, '=' :: rest) := by
  simp only [shortNames, List.mem_cons, List.not_mem_nil, or_false, Prod.mk.injEq] at h
  rcases h with h | h | h | h | h | h | h | h | h <;> obtain ⟨rfl, rfl⟩ := h <;> rfl

theorem takeType_dotted {type : Oid} (h : Oid.ofArcs? type.arcs = some type) (rest : List Char) :
    takeType (type.dotted.toList ++ '=' :: rest) = .ok (type, '=' :: rest) := by
  obtain ⟨-, n, m, ns, arcs⟩ := eq_of_ofArcs? h
  obtain ⟨arcs'⟩ := type
  obtain rfl : arcs' = n :: m :: ns := arcs
  unfold takeType
  rw [takeOid?_dotted]
  simp only [oidOfArcs?_digits, h]

theorem takeType_eq_ok {cs rest : List Char} {type : Oid}
    (h : takeType cs = .ok (type, '=' :: rest)) :
    ∃ text, cs = text ++ '=' :: rest ∧ TypeText type text := by
  unfold takeType at h
  split at h
  · rename_i arcs rest' found
    obtain ⟨first, more, rfl, text, shapes⟩ := takeOid?_eq_some found
    split at h
    · rename_i type' made
      cases h
      obtain ⟨ns, values, known⟩ := Option.bind_eq_some_iff.mp made
      have numbers := mapM_arcValue? shapes values
      obtain ⟨rfl, n, m, ns, rfl⟩ := eq_of_ofArcs? known
      obtain ⟨rfl, rfl⟩ := List.cons.inj numbers
      refine ⟨_, ?_, .dotted known⟩
      rw [toList_dotted]
      exact text
    · cases h
  · split at h
    · rename_i type' found
      obtain ⟨rfl, remaining⟩ := Prod.mk.inj (Except.ok.inj h)
      have member := (lookup_eq_some_iff_mem (by decide)).mp found
      have whole := List.takeWhile_append_dropWhile (p := (· ≠ '=')) (l := cs)
      rw [remaining] at whole
      refine ⟨_, ?_, .short member⟩
      rw [String.toList_ofList, whole]
    · cases h

/-- **Reading a type takes one of its spellings off the text, and the equals sign after it.** -/
theorem readType_eq_ok_iff {cs rest : List Char} {type : Oid} :
    readType cs = .ok (type, rest) ↔ ∃ text, cs = text ++ '=' :: rest ∧ TypeText type text := by
  unfold readType
  constructor
  · intro h
    obtain ⟨⟨type', rest'⟩, taken, h⟩ := bind_eq_ok.mp h
    dsimp only at h
    split at h
    · cases h
      exact takeType_eq_ok taken
    · cases h
  · rintro ⟨text, rfl, spelled⟩
    have taken : takeType (text ++ '=' :: rest) = .ok (type, '=' :: rest) := by
      cases spelled with
      | short h => exact takeType_shortName h rest
      | dotted h => exact takeType_dotted h rest
    rw [taken]
    rfl

end NotaryNetwork.Name
