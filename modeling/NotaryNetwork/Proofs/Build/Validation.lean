import NotaryNetwork.Build.Validation
import NotaryNetwork.Proofs.Outcome

/-!
# What the validation refuses

An identity is marked if the marker of workers stands in its common name, and crowded if its common
name leaves no room for a space and the marker. The validator refuses the first identity that is
marked, and of services also the first that is crowded (`validateService_eq_error`).
-/

namespace NotaryNetwork

theorem Text.occurs_iff {word cs : List Char} : Text.occurs word cs = true ↔ word <:+: cs := by
  induction cs with
  | nil =>
    rw [Text.occurs, List.isEmpty_iff, List.infix_nil]
  | cons c cs ih =>
    have here : (Text.after? word (c :: cs)).isSome ↔ word <+: c :: cs := by
      rw [Option.isSome_iff_exists]
      constructor
      · rintro ⟨rest, h⟩
        exact ⟨rest, (Text.after?_eq_some_iff.mp h).symm⟩
      · rintro ⟨rest, h⟩
        exact ⟨rest, Text.after?_eq_some_iff.mpr h.symm⟩
    rw [Text.occurs, Bool.or_eq_true, here, ih, List.infix_cons_iff]

namespace Identity

/-- The marker of workers stands in the common name. -/
def Marked (i : Identity) : Prop :=
  ∃ name, i.commonName = some name ∧ workerMarker.toList <:+: name.val.toList

/-- The common name has more characters than leave room for a space and the marker. -/
def Crowded (i : Identity) : Prop :=
  ∃ name, i.commonName = some name ∧ 51 < name.val.length

end Identity

/-- How a marked identity is refused. -/
def MarkerFault (i : Identity) (e : BuildError) : Prop :=
  ∃ name, i.commonName = some name ∧ workerMarker.toList <:+: name.val.toList ∧
    e = .invalidIdentity name.val workerMarker .containsMarker

/-- How a crowded service is refused. -/
def RoomFault (i : Identity) (e : BuildError) : Prop :=
  ¬ i.Marked ∧ ∃ name, i.commonName = some name ∧ 51 < name.val.length ∧
    e = .invalidIdentity name.val workerMarker (.tooLong 51)

theorem exists_markerFault {i : Identity} : (∃ e, MarkerFault i e) ↔ i.Marked := by
  constructor
  · rintro ⟨e, name, common, inside, -⟩
    exact ⟨name, common, inside⟩
  · rintro ⟨name, common, inside⟩
    exact ⟨_, name, common, inside, rfl⟩

theorem exists_roomFault {i : Identity} : (∃ e, RoomFault i e) ↔ ¬ i.Marked ∧ i.Crowded := by
  constructor
  · rintro ⟨e, unmarked, name, common, long, -⟩
    exact ⟨unmarked, name, common, long⟩
  · rintro ⟨unmarked, name, common, long⟩
    exact ⟨_, unmarked, name, common, long, rfl⟩

namespace IdentityValidator

theorem validate_eq_error {i : Identity} {e : BuildError} :
    standard.validate i = .error e ↔ MarkerFault i e := by
  unfold validate MarkerFault standard
  cases i.commonName with
  | none => simp
  | some name =>
    by_cases inside : Text.occurs workerMarker.toList name.val.toList
    · simp [inside, Text.occurs_iff.mp inside, eq_comm]
    · simp [inside, mt Text.occurs_iff.mpr inside]

theorem validate_eq_ok {i : Identity} : standard.validate i = .ok () ↔ ¬ i.Marked := by
  rw [← exists_markerFault]
  cases h : standard.validate i with
  | ok u => simp [← validate_eq_error, h]
  | error e => simpa using ⟨e, validate_eq_error.mp h⟩

/-- **A service is refused for the marker in its common name, or else for a common name of more
than 51 characters.** -/
theorem validateService_eq_error {i : Identity} {e : BuildError} :
    standard.validateService i = .error e ↔ MarkerFault i e ∨ RoomFault i e := by
  have room : standard.room = 51 := rfl
  unfold validateService
  cases h : standard.validate i with
  | error e' =>
    have marked : i.Marked := exists_markerFault.mp ⟨e', validate_eq_error.mp h⟩
    have roomless : ¬ RoomFault i e := fun ⟨unmarked, _⟩ => unmarked marked
    rw [← validate_eq_error, h, or_iff_left roomless]
    rfl
  | ok u =>
    have unmarked : ¬ i.Marked := validate_eq_ok.mp h
    have markerless : ¬ MarkerFault i e := fun fault => unmarked (exists_markerFault.mp ⟨e, fault⟩)
    rw [or_iff_right markerless, RoomFault, and_iff_right unmarked, room]
    cases common : i.commonName with
    | none => simp [bind, Except.bind, pure, Except.pure]
    | some name =>
      by_cases long : 51 < name.val.length
      · simp [bind, Except.bind, long, show (51 : Int) < name.val.length by omega, throw, throwThe,
          MonadExceptOf.throw, standard, eq_comm]
      · simp [bind, Except.bind, pure, Except.pure, long,
          show ¬ (51 : Int) < name.val.length by omega]

theorem validateService_eq_ok {s : Identity} :
    standard.validateService s = .ok () ↔ ¬ s.Marked ∧ ¬ s.Crowded := by
  have passes : standard.validateService s = .ok () ↔ ¬ ∃ e, MarkerFault s e ∨ RoomFault s e := by
    simp only [← validateService_eq_error]
    cases standard.validateService s <;> simp
  rw [passes, exists_or, exists_markerFault, exists_roomFault]
  by_cases marked : s.Marked <;> simp [marked]

/-! ## Validating many identities -/

theorem outcome_validateAll (v : IdentityValidator) (is : List Identity) :
    (v.validateAll is).outcome = is.forM v.validate := by
  unfold validateAll
  rw [Traced.outcome_bind, Traced.outcome_ofExcept]
  cases is.forM v.validate <;> rfl

theorem outcome_validateServices (v : IdentityValidator) (services : List Identity) :
    (v.validateServices services).outcome = services.forM v.validateService := by
  unfold validateServices
  rw [Traced.outcome_bind, Traced.outcome_ofExcept]
  cases services.forM v.validateService <;> rfl

theorem validateAll_eq_ok {is : List Identity} :
    (standard.validateAll is).outcome = .ok () ↔ ∀ i ∈ is, ¬ i.Marked := by
  simp only [outcome_validateAll, forM_eq_ok, validate_eq_ok]

theorem validateServices_eq_ok {services : List Identity} :
    (standard.validateServices services).outcome = .ok () ↔
      ∀ s ∈ services, ¬ s.Marked ∧ ¬ s.Crowded := by
  simp only [outcome_validateServices, forM_eq_ok, validateService_eq_ok]

end IdentityValidator

end NotaryNetwork
