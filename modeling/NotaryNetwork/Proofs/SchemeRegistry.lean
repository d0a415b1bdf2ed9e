import Mathlib.Data.List.Induction
import NotaryNetwork.Build.Provisioning
import NotaryNetwork.Proofs.Outcome
import NotaryNetwork.Proofs.Table

/-!
# Registries over time

What a registry holds is told by the schemes that have been given to it, those that it refused
included: their names in the order in which they first came, each bound to the first scheme that
came under it (`Binds`). A call keeps this (`Binds.call`), and how it is answered is told by the
schemes given before it (`Binds.call_eq_iff`). So it holds after any calls, and a name that is bound
stays bound to its scheme (`bound_after`). Which lists make a registry is told by `ofList_eq_ok_iff`
and `ofList_eq_error_iff`, and `answers_after` puts all of it together.
-/

namespace NotaryNetwork.SchemeRegistry

/-! ## Calls -/

/-- What is asked of a registry. -/
inductive Call
  | register (scheme : KeyScheme)
  | find (codeName : String)
  | contains (codeName : String)
  | codeNames

/-- What a registry answers. -/
inductive Answer
  | registered
  /-- The name is taken. -/
  | refused (message : String)
  | found (scheme : KeyScheme)
  | unknown (error : BuildError)
  | held (holds : Bool)
  | names (codeNames : List String)

/-- The scheme that a call gives for registration. -/
def Call.given? : Call → Option KeyScheme
  | register scheme => some scheme
  | find _ | contains _ | codeNames => none

/-- The answer to a call and the registry after it. -/
def call (r : SchemeRegistry) : Call → Answer × SchemeRegistry
  | .register scheme =>
    match r.register? scheme with
    | some grown => (.registered, grown)
    | none => (.refused (alreadyRegistered scheme.codeName), r)
  | .find codeName =>
    match r.resolve codeName with
    | .ok scheme => (.found scheme, r)
    | .error e => (.unknown e, r)
  | .contains codeName => (.held (r.contains codeName), r)
  | .codeNames => (.names r.codeNames, r)

/-- The registry after calls, those that it refused included. -/
def after (r : SchemeRegistry) (calls : List Call) : SchemeRegistry :=
  calls.foldl (fun r c => (r.call c).2) r

def namesOf (schemes : List KeyScheme) : List String :=
  schemes.map (·.codeName)

/-- The answer to a call, told by the schemes that have been given before it. -/
inductive Answers (given : List KeyScheme) : Call → Answer → Prop
  | registered {scheme} : scheme.codeName ∉ namesOf given →
      Answers given (.register scheme) .registered
  | refused {scheme} : scheme.codeName ∈ namesOf given →
      Answers given (.register scheme) (.refused (alreadyRegistered scheme.codeName))
  /-- The first scheme of a name is found. -/
  | found {codeName scheme} : IsFirst (·.codeName = codeName) given scheme →
      Answers given (.find codeName) (.found scheme)
  /-- The error has the name and all the names that are there. -/
  | unknown {codeName} : codeName ∉ namesOf given →
      Answers given (.find codeName) (.unknown (.unknownScheme codeName (distinct (namesOf given))))
  | held {codeName} : codeName ∈ namesOf given → Answers given (.contains codeName) (.held true)
  | absent {codeName} : codeName ∉ namesOf given → Answers given (.contains codeName) (.held false)
  | names : Answers given .codeNames (.names (distinct (namesOf given)))

variable {given : List KeyScheme} {r grown : SchemeRegistry} {scheme : KeyScheme}
  {codeName : String}

/-! ## Looking up -/

theorem mem_namesOf : codeName ∈ namesOf given ↔ ∃ s ∈ given, s.codeName = codeName :=
  List.mem_map

theorem not_mem_namesOf : codeName ∉ namesOf given ↔ ∀ s ∈ given, ¬ s.codeName = codeName := by
  simp [namesOf]

theorem namesOf_concat (given : List KeyScheme) (scheme : KeyScheme) :
    namesOf (given ++ [scheme]) = namesOf given ++ [scheme.codeName] := by
  simp [namesOf]

theorem find?_eq_some_iff :
    r.find? codeName = some scheme ↔ IsFirst (·.codeName = codeName) r.schemes scheme :=
  IsFirst.iff_find?.symm

theorem of_find? (h : r.find? codeName = some scheme) :
    scheme ∈ r.schemes ∧ scheme.codeName = codeName :=
  ⟨(find?_eq_some_iff.mp h).mem, (find?_eq_some_iff.mp h).holds⟩

theorem exists_find?_iff : (∃ scheme, r.find? codeName = some scheme) ↔ codeName ∈ r.codeNames := by
  simp only [find?_eq_some_iff, IsFirst.exists_iff]
  exact List.mem_map.symm

theorem contains_iff : r.contains codeName = true ↔ codeName ∈ r.codeNames := by
  simp [contains]

theorem resolve_eq_ok : r.resolve codeName = .ok scheme ↔ r.find? codeName = some scheme := by
  unfold resolve
  cases r.find? codeName <;> simp

theorem resolve_eq_error {e : BuildError} :
    r.resolve codeName = .error e ↔
      codeName ∉ r.codeNames ∧ e = .unknownScheme codeName r.codeNames := by
  have absent : r.find? codeName = none ↔ codeName ∉ r.codeNames := by
    rw [← exists_find?_iff]
    cases r.find? codeName <;> simp
  rw [← absent]
  unfold resolve
  cases r.find? codeName <;> simp [eq_comm]

/-! ## Registering -/

theorem register?_eq_some_iff :
    r.register? scheme = some grown ↔
      scheme.codeName ∉ r.codeNames ∧ grown.schemes = r.schemes ++ [scheme] := by
  unfold register?
  by_cases taken : scheme.codeName ∈ r.codeNames
  · simp [taken]
  · obtain ⟨schemes, nodup⟩ := grown
    simp [taken, eq_comm]

theorem register?_eq_none_iff : r.register? scheme = none ↔ scheme.codeName ∈ r.codeNames := by
  unfold register?
  by_cases taken : scheme.codeName ∈ r.codeNames <;> simp [taken]

/-- A registration is refused if the name is taken; any other one puts the scheme at the end. -/
theorem call_register (r : SchemeRegistry) (scheme : KeyScheme) :
    (scheme.codeName ∈ r.codeNames ∧
      r.call (.register scheme) = (.refused (alreadyRegistered scheme.codeName), r)) ∨
    (scheme.codeName ∉ r.codeNames ∧ ∃ grown, r.call (.register scheme) = (.registered, grown) ∧
      grown.schemes = r.schemes ++ [scheme]) := by
  rw [call]
  cases made : r.register? scheme with
  | none => exact .inl ⟨register?_eq_none_iff.mp made, rfl⟩
  | some grown =>
    obtain ⟨free, schemes⟩ := register?_eq_some_iff.mp made
    exact .inr ⟨free, grown, rfl, schemes⟩

/-- A call that does not register a scheme leaves the registry as it was. -/
theorem call_unchanged {c : Call} (h : (r.call c).1 ≠ .registered) : (r.call c).2 = r := by
  cases c with
  | register scheme =>
    rcases call_register r scheme with ⟨-, refused⟩ | ⟨-, grown, made, -⟩
    · rw [refused]
    · rw [made] at h
      exact absurd rfl h
  | find codeName =>
    rw [call]
    cases r.resolve codeName <;> rfl
  | contains codeName => rfl
  | codeNames => rfl

/-! ## What is held -/

/-- A registry holds what it has been given: the names in the order in which they first came, each
bound to the first scheme that came under it. -/
structure Binds (given : List KeyScheme) (r : SchemeRegistry) : Prop where
  names : r.codeNames = distinct (namesOf given)
  first : ∀ codeName scheme,
    r.find? codeName = some scheme ↔ IsFirst (·.codeName = codeName) given scheme

/-- A registry holds its own schemes. -/
theorem binds_self (r : SchemeRegistry) : Binds r.schemes r where
  names := (distinct_of_nodup r.nodup).symm
  first _ _ := find?_eq_some_iff

namespace Binds

theorem mem_names (h : Binds given r) : codeName ∈ r.codeNames ↔ codeName ∈ namesOf given := by
  rw [h.names, mem_distinct]

/-- A scheme whose name is taken changes nothing. -/
theorem refused (h : Binds given r) (taken : scheme.codeName ∈ namesOf given) :
    Binds (given ++ [scheme]) r where
  names := by
    rw [h.names, namesOf_concat, distinct_concat, if_pos taken]
  first codeName s := by
    rw [h.first, IsFirst.concat_iff, or_iff_left]
    rintro ⟨absent, rfl, -⟩
    exact not_mem_namesOf.mpr absent taken

/-- A scheme with a new name is bound to it. -/
theorem registered (h : Binds given r) (free : scheme.codeName ∉ namesOf given)
    (schemes : grown.schemes = r.schemes ++ [scheme]) : Binds (given ++ [scheme]) grown where
  names := by
    have added : grown.codeNames = r.codeNames ++ [scheme.codeName] := by
      rw [codeNames, schemes]
      exact namesOf_concat _ _
    rw [added, h.names, namesOf_concat, distinct_concat, if_neg free]
  first codeName s := by
    have absent : (∀ s ∈ r.schemes, ¬ s.codeName = codeName) ↔
        ∀ s ∈ given, ¬ s.codeName = codeName := by
      rw [← not_mem_namesOf, ← not_mem_namesOf]
      exact not_congr h.mem_names
    rw [find?_eq_some_iff, schemes, IsFirst.concat_iff, IsFirst.concat_iff, absent,
      ← find?_eq_some_iff, h.first]

/-- **A call keeps what is held in line with what has been given.** -/
theorem call (h : Binds given r) (c : Call) :
    Binds (given ++ c.given?.toList) (r.call c).2 := by
  cases c with
  | register scheme =>
    rcases call_register r scheme with ⟨taken, refusal⟩ | ⟨free, grown, made, schemes⟩
    · rw [refusal]
      exact h.refused (h.mem_names.mp taken)
    · rw [made]
      exact h.registered (mt h.mem_names.mpr free) schemes
  | find codeName =>
    rw [call_unchanged, Call.given?, Option.toList_none, List.append_nil]
    · exact h
    · rw [SchemeRegistry.call]
      cases r.resolve codeName <;> simp
  | contains codeName | codeNames =>
    rw [Call.given?, Option.toList_none, List.append_nil]
    exact h

theorem after (h : Binds given r) (calls : List Call) :
    Binds (given ++ calls.filterMap Call.given?) (r.after calls) := by
  induction calls generalizing given r with
  | nil =>
    rw [List.filterMap_nil, List.append_nil]
    exact h
  | cons c calls ih =>
    have rest := ih (h.call c)
    have next : r.after (c :: calls) = (r.call c).2.after calls := rfl
    rw [next]
    cases told : c.given? with
    | none => simpa [told] using rest
    | some scheme => simpa [told] using rest

/-- A call is answered as the schemes given before it say. -/
theorem eq_of_answers (h : Binds given r) {c : Call} {answer : Answer}
    (told : Answers given c answer) : (r.call c).1 = answer := by
  cases told with
  | @registered scheme free =>
    rcases call_register r scheme with ⟨taken, -⟩ | ⟨-, grown, made, -⟩
    · exact absurd (h.mem_names.mp taken) free
    · rw [made]
  | @refused scheme taken =>
    rcases call_register r scheme with ⟨-, refusal⟩ | ⟨free, -⟩
    · rw [refusal]
    · exact absurd (h.mem_names.mpr taken) free
  | found first =>
    have resolved := resolve_eq_ok.mpr ((h.first _ _).mpr first)
    rw [SchemeRegistry.call, resolved]
  | unknown absent =>
    have resolved := resolve_eq_error.mpr ⟨mt h.mem_names.mp absent, rfl⟩
    rw [SchemeRegistry.call, resolved, h.names]
  | held bound =>
    have listed := contains_iff.mpr (h.mem_names.mpr bound)
    rw [SchemeRegistry.call, listed]
  | absent missing =>
    have unlisted := Bool.eq_false_iff.mpr (mt contains_iff.mp (mt h.mem_names.mp missing))
    rw [SchemeRegistry.call, unlisted]
  | names => rw [SchemeRegistry.call, h.names]

end Binds

theorem exists_answers (given : List KeyScheme) (c : Call) : ∃ answer, Answers given c answer := by
  cases c with
  | register scheme =>
    by_cases taken : scheme.codeName ∈ namesOf given
    · exact ⟨_, .refused taken⟩
    · exact ⟨_, .registered taken⟩
  | find codeName =>
    by_cases bound : codeName ∈ namesOf given
    · obtain ⟨scheme, first⟩ := IsFirst.exists_iff.mpr (mem_namesOf.mp bound)
      exact ⟨_, .found first⟩
    · exact ⟨_, .unknown bound⟩
  | contains codeName =>
    by_cases bound : codeName ∈ namesOf given
    · exact ⟨_, .held bound⟩
    · exact ⟨_, .absent bound⟩
  | codeNames => exact ⟨_, .names⟩

/-- **A call is answered as the schemes given before it say, and in no other way.** -/
theorem Binds.call_eq_iff (h : Binds given r) {c : Call} {answer : Answer} :
    (r.call c).1 = answer ↔ Answers given c answer := by
  constructor
  · rintro rfl
    obtain ⟨answer, told⟩ := exists_answers given c
    rw [h.eq_of_answers told]
    exact told
  · exact h.eq_of_answers

/-- A name that is bound stays bound to its scheme, whatever is asked afterwards. -/
theorem bound_after (h : r.find? codeName = some scheme) (calls : List Call) :
    (r.after calls).find? codeName = some scheme := by
  have later := (binds_self r).after calls
  rw [later.first]
  exact (find?_eq_some_iff.mp h).append _

/-! ## Registries from lists -/

/-- The first scheme whose name a scheme before it has; the name is the error. -/
def Repeats (schemes : List KeyScheme) (codeName : String) : Prop :=
  ∃ front scheme rest, schemes = front ++ scheme :: rest ∧ (namesOf front).Nodup ∧
    scheme.codeName ∈ namesOf front ∧ scheme.codeName = codeName

theorem ofList_concat (schemes : List KeyScheme) (scheme : KeyScheme) :
    ofList (schemes ++ [scheme]) = ofList schemes >>= fun r =>
      match r.register? scheme with
      | some r => .ok r
      | none => .error scheme.codeName := by
  unfold ofList
  rw [List.foldlM_append]
  exact congrArg _ (funext fun r => bind_pure _)

/-- A registry is made of a list if it can have the schemes of the list. -/
theorem ofList_eq_ok_iff {schemes : List KeyScheme} :
    ofList schemes = .ok r ↔ r.schemes = schemes := by
  induction schemes using List.reverseRecOn generalizing r with
  | nil =>
    obtain ⟨held, nodup⟩ := r
    simp [ofList, empty, pure, Except.pure, eq_comm]
  | append_singleton schemes scheme ih =>
    rw [ofList_concat, bind_eq_ok]
    constructor
    · rintro ⟨before, made, last⟩
      cases added : before.register? scheme with
      | none => simp [added] at last
      | some grown =>
        obtain rfl : grown = r := by simpa [added] using last
        rw [(register?_eq_some_iff.mp added).2, ih.mp made]
    · intro whole
      have names : (namesOf schemes ++ [scheme.codeName]).Nodup := by
        rw [← namesOf_concat, ← whole]
        exact r.nodup
      obtain ⟨nodup, -, apart⟩ := List.nodup_append.mp names
      have free : scheme.codeName ∉ namesOf schemes := fun taken =>
        apart _ taken _ List.mem_cons_self rfl
      have added : register? ⟨schemes, nodup⟩ scheme = some r :=
        register?_eq_some_iff.mpr ⟨free, whole⟩
      exact ⟨⟨schemes, nodup⟩, ih.mpr rfl, by rw [added]⟩

theorem repeats_concat_iff {schemes : List KeyScheme} :
    Repeats (schemes ++ [scheme]) codeName ↔ Repeats schemes codeName ∨
      (namesOf schemes).Nodup ∧ scheme.codeName ∈ namesOf schemes ∧ scheme.codeName = codeName := by
  constructor
  · rintro ⟨front, repeated, rest, whole, nodup, taken, rfl⟩
    rcases List.eq_nil_or_concat rest with rfl | ⟨rest, final, rfl⟩
    · obtain ⟨rfl, rfl⟩ : schemes = front ∧ scheme = repeated := by simpa using whole
      exact .inr ⟨nodup, taken, rfl⟩
    · have split : schemes ++ [scheme] = (front ++ repeated :: rest) ++ [final] := by
        simpa using whole
      obtain ⟨rfl, -⟩ := List.append_inj' split rfl
      exact .inl ⟨front, repeated, rest, rfl, nodup, taken, rfl⟩
  · rintro (⟨front, repeated, rest, rfl, nodup, taken, same⟩ | ⟨nodup, taken, same⟩)
    · exact ⟨front, repeated, rest ++ [scheme], by simp, nodup, taken, same⟩
    · exact ⟨schemes, scheme, [], rfl, nodup, taken, same⟩

/-- The first name that is repeated is the error. -/
theorem ofList_eq_error_iff {schemes : List KeyScheme} :
    ofList schemes = .error codeName ↔ Repeats schemes codeName := by
  induction schemes using List.reverseRecOn with
  | nil =>
    constructor
    · intro fails
      cases fails
    · rintro ⟨front, scheme, rest, whole, -⟩
      simp at whole
  | append_singleton schemes scheme ih =>
    rw [ofList_concat, bind_eq_error, repeats_concat_iff, ih]
    refine or_congr_right ?_
    constructor
    · rintro ⟨r, made, last⟩
      have held := ofList_eq_ok_iff.mp made
      subst held
      cases added : r.register? scheme with
      | some grown => simp [added] at last
      | none => exact ⟨r.nodup, register?_eq_none_iff.mp added, by simpa [added] using last⟩
    · rintro ⟨nodup, taken, same⟩
      have refused : register? ⟨schemes, nodup⟩ scheme = none := register?_eq_none_iff.mpr taken
      exact ⟨⟨schemes, nodup⟩, ofList_eq_ok_iff.mpr rfl, by rw [refused, same]⟩

/-! ## Calls in sequence -/

/-- The ways to ask for names agree, and a scheme is refused if and only if its name is there. -/
structure Consistent (r : SchemeRegistry) : Prop where
  nodup : r.codeNames.Nodup
  contains : ∀ codeName, r.contains codeName = true ↔ codeName ∈ r.codeNames
  found : ∀ codeName, (∃ scheme, r.resolve codeName = .ok scheme) ↔ codeName ∈ r.codeNames
  named : ∀ codeName scheme, r.resolve codeName = .ok scheme → scheme.codeName = codeName
  unknown : ∀ codeName, codeName ∉ r.codeNames →
    r.resolve codeName = .error (.unknownScheme codeName r.codeNames)
  taken : ∀ scheme, r.register? scheme = none ↔ scheme.codeName ∈ r.codeNames

theorem consistent (r : SchemeRegistry) : Consistent r where
  nodup := r.nodup
  contains _ := contains_iff
  found codeName := by
    simp only [resolve_eq_ok]
    exact exists_find?_iff
  named _ _ h := (of_find? (resolve_eq_ok.mp h)).2
  unknown _ absent := resolve_eq_error.mpr ⟨absent, rfl⟩
  taken _ := register?_eq_none_iff

/-- **Calls are answered as the schemes given before them say.** A registry is made of a list unless
a name is repeated in it. After any calls it has the names of the schemes it has been given, each
bound to the first one that came under it and for ever; its views of the names agree; and a call
changes it only if it registers a scheme. -/
theorem answers_after (initial : List KeyScheme) :
    (∀ codeName, ofList initial = .error codeName ↔ Repeats initial codeName) ∧
    ∀ r, ofList initial = .ok r → ∀ calls,
      Binds (initial ++ calls.filterMap Call.given?) (r.after calls) ∧
      Consistent (r.after calls) ∧
      (∀ codeName scheme more, (r.after calls).resolve codeName = .ok scheme →
        (r.after (calls ++ more)).resolve codeName = .ok scheme) ∧
      ∀ c, (∀ answer, ((r.after calls).call c).1 = answer ↔
          Answers (initial ++ calls.filterMap Call.given?) c answer) ∧
        (((r.after calls).call c).1 ≠ .registered →
          ((r.after calls).call c).2 = r.after calls) := by
  refine ⟨fun codeName => ofList_eq_error_iff, fun r made calls => ?_⟩
  have binds : Binds (initial ++ calls.filterMap Call.given?) (r.after calls) := by
    have start := binds_self r
    rw [ofList_eq_ok_iff.mp made] at start
    exact start.after calls
  refine ⟨binds, consistent _, ?_, fun c => ⟨fun answer => binds.call_eq_iff, call_unchanged⟩⟩
  intro codeName scheme more found
  have later : r.after (calls ++ more) = (r.after calls).after more := List.foldl_append
  rw [later, resolve_eq_ok]
  exact bound_after (resolve_eq_ok.mp found) more

/-- A scheme under the name of the RSA scheme with another algorithm. -/
def homonym : KeyScheme := ⟨"CORDA.RSA", KeyScheme.edwardsAlgorithm, none, none⟩

theorem answers_after_homonym :
    ∃ r, ofList [KeyScheme.rsa, KeyScheme.ed25519] = .ok r ∧
      let calls := [.find KeyScheme.x25519.codeName, .register homonym, .register KeyScheme.x25519]
      (r.after calls).resolve homonym.codeName = .ok KeyScheme.rsa ∧
      (r.after calls).codeNames =
        [KeyScheme.rsa.codeName, KeyScheme.ed25519.codeName, KeyScheme.x25519.codeName] ∧
      ((r.after calls).call (.register homonym)).1 = .refused (alreadyRegistered "CORDA.RSA") ∧
      ((r.after calls).call (.register homonym)).2 = r.after calls := by
  have made : ofList [KeyScheme.rsa, KeyScheme.ed25519] =
      .ok ⟨[KeyScheme.rsa, KeyScheme.ed25519], by decide⟩ := by
    rfl
  refine ⟨_, made, ?_⟩
  intro calls
  obtain ⟨binds, -, -, answers⟩ := (answers_after _).2 _ made calls
  have refused := ((answers (.register homonym)).1 _).mpr (.refused (by decide))
  refine ⟨resolve_eq_ok.mpr ((binds.first _ _).mpr ?_), binds.names.trans (by decide), refused,
    (answers (.register homonym)).2 ?_⟩
  · exact ⟨[], _, rfl, by simp, rfl⟩
  · simp [refused]

end NotaryNetwork.SchemeRegistry
