import NotaryNetwork.Build.Topology
import NotaryNetwork.Proofs.Build.Validation
import NotaryNetwork.Proofs.Identity.RoundTrip

/-!
# The standard naming of workers

The standard naming changes nothing but the common name of a service (`standard_eq_ok`). It succeeds
on just the services that leave room for the marker (`exists_standard_iff`), no two services get one
worker (`standard_injective`), and every worker is marked, so that it cannot be a validated member.
The check of services therefore admits those that have a worker and are not marked themselves
(`validateService_iff_standard`).
-/

namespace NotaryNetwork.WorkerNaming

open Identity
open Record (checkLabel)

theorem length_workerCommonName (s : Identity) : (workerCommonName s).length =
    match s.commonName with
    | none => 12
    | some name => name.val.length + 13 := by
  have marker : workerMarker.length = 12 := by decide
  unfold workerCommonName
  cases s.commonName with
  | none => exact marker
  | some name =>
    have gap : " ".length = 1 := by decide
    simp only [String.length_append, marker, gap, Nat.add_assoc]

theorem workerCommonName_pos (s : Identity) : 1 ≤ (workerCommonName s).length := by
  rw [length_workerCommonName]
  split <;> omega

/-- The standard naming changes the common name, as far as the result is one. -/
theorem standard_eq_ok {s : Identity} {w : Identity} :
    standard s = .ok w ↔ ∃ h, w = { s with commonName := some ⟨workerCommonName s, h⟩ } := by
  have made : derive s = (Checked.within (.field "common_name")
      ((checkLabel 64 (workerCommonName s)).map some)).map
        fun name => { s with commonName := name } := by
    unfold derive override
    rw [ofFields_of_others (i := s)]
    · rfl
    · intro f other
      cases f with
      | commonName => exact absurd rfl other
      | _ => rfl
  unfold standard
  rw [mapError_eq_ok, made, checkLabel, dif_pos (workerCommonName_pos s)]
  by_cases most : (workerCommonName s).length ≤ 64
  · rw [dif_pos most]
    constructor
    · intro h
      exact ⟨⟨workerCommonName_pos s, most⟩, (Except.ok.inj h).symm⟩
    · rintro ⟨h, rfl⟩
      rfl
  · rw [dif_neg most]
    constructor
    · intro h
      cases h
    · rintro ⟨⟨-, h⟩, -⟩
      exact absurd h most

/-- Where the standard naming fails, it refuses the common name. -/
theorem standard_eq_error {s : Identity} {e : ParseError} (h : standard s = .error e) :
    ∃ issues, e = .refused issues := by
  obtain ⟨issues, -, rfl⟩ := mapError_eq_error.mp h
  exact ⟨issues, rfl⟩

theorem commonName_of_standard {s w : Identity} (h : standard s = .ok w) :
    ∃ name, w.commonName = some name ∧ name.val = workerCommonName s := by
  obtain ⟨fits, rfl⟩ := standard_eq_ok.mp h
  exact ⟨⟨_, fits⟩, rfl, rfl⟩

theorem workerCommonName_injective {s t : Identity} (h : workerCommonName s = workerCommonName t) :
    s.commonName = t.commonName := by
  have lengths := congrArg String.length h
  rw [length_workerCommonName, length_workerCommonName] at lengths
  unfold workerCommonName at h
  cases hs : s.commonName with
  | none =>
    cases ht : t.commonName with
    | none => rfl
    | some b =>
      simp only [hs, ht] at lengths
      omega
  | some a =>
    cases ht : t.commonName with
    | none =>
      simp only [hs, ht] at lengths
      omega
    | some b =>
      simp only [hs, ht] at h
      have same := congrArg String.toList h
      simp only [String.toList_append, List.append_assoc] at same
      have same : a.val = b.val := String.toList_inj.mp (List.append_cancel_right same)
      exact congrArg some (Subtype.ext same)

/-- **The standard naming gives different services different workers.** -/
theorem standard_injective {s t w : Identity} (hs : standard s = .ok w) (ht : standard t = .ok w) :
    s = t := by
  obtain ⟨_, rfl⟩ := standard_eq_ok.mp hs
  obtain ⟨_, same⟩ := standard_eq_ok.mp ht
  obtain ⟨name, unit, organization, locality, state, country⟩ := s
  obtain ⟨name', unit', organization', locality', state', country'⟩ := t
  simp only [Identity.mk.injEq, Option.some.injEq, Subtype.mk.injEq] at same ⊢
  obtain ⟨names, others⟩ := same
  exact ⟨workerCommonName_injective names, others⟩

theorem marked_of_standard {s w : Identity} (h : standard s = .ok w) : w.Marked := by
  obtain ⟨name, common, text⟩ := commonName_of_standard h
  refine ⟨name, common, ?_⟩
  rw [text]
  unfold workerCommonName
  split
  · exact List.infix_refl _
  · rename_i own _
    rw [String.toList_append]
    exact (List.suffix_append _ _).isInfix

theorem standard_of_roomy {s : Identity} (h : ¬ s.Crowded) : ∃ w, standard s = .ok w := by
  have most : (workerCommonName s).length ≤ 64 := by
    rw [length_workerCommonName]
    split
    · omega
    · rename_i name common
      have : ¬ 51 < name.val.length := fun long => h ⟨name, common, long⟩
      omega
  exact ⟨_, standard_eq_ok.mpr ⟨⟨workerCommonName_pos s, most⟩, rfl⟩⟩

/-- A common name and the marker after it are too long if the common name is by itself. -/
theorem not_crowded_of_standard {s w : Identity} (h : standard s = .ok w) : ¬ s.Crowded := by
  rintro ⟨name, common, long⟩
  obtain ⟨⟨-, most⟩, -⟩ := standard_eq_ok.mp h
  rw [length_workerCommonName, common] at most
  simp only at most
  omega

theorem exists_standard_iff {s : Identity} : (∃ w, standard s = .ok w) ↔ ¬ s.Crowded := by
  constructor
  · rintro ⟨w, named⟩
    exact not_crowded_of_standard named
  · exact standard_of_roomy

/-! ## Naming and checking -/

/-- A worker is a service but for its common name, which is the service's own with the marker, so
that it is refused as a participant; it is the worker of no other service. -/
structure Derived (s w : Identity) : Prop where
  commonName : w.get? .commonName = some (workerCommonName s)
  others : ∀ f, f ≠ .commonName → w.get? f = s.get? f
  refused : IdentityValidator.standard.validate w =
    .error (.invalidIdentity (workerCommonName s) workerMarker .containsMarker)
  only : ∀ t, standard t = .ok w → t = s

theorem derived_of_standard {s w : Identity} (h : standard s = .ok w) : Derived s w where
  commonName := by
    obtain ⟨name, common, text⟩ := commonName_of_standard h
    rw [get?, common, Option.map_some, text]
  others f other := by
    obtain ⟨fits, rfl⟩ := standard_eq_ok.mp h
    cases f with
    | commonName => exact absurd rfl other
    | organizationUnit | organization | locality | state | country => rfl
  refused := by
    obtain ⟨name, common, text⟩ := commonName_of_standard h
    obtain ⟨name', common', inside⟩ := marked_of_standard h
    obtain rfl := Option.some.inj (common.symm.trans common')
    apply IdentityValidator.validate_eq_error.mpr
    exact ⟨name, common, inside, by rw [text]⟩
  only t ht := standard_injective ht h

/-- **A service passes the check if and only if its common name does not have the marker and the
standard naming gives it a worker. The worker is the service but for the common name, it is refused
as a participant, and no other service has it.** -/
theorem validateService_iff_standard (s : Identity) :
    (IdentityValidator.standard.validateService s = .ok () ↔
      (∀ name, s.commonName = some name → ¬ workerMarker.toList <:+: name.val.toList) ∧
        ∃ w, standard s = .ok w) ∧
    ∀ w, standard s = .ok w → Derived s w := by
  have unmarked : (∀ name, s.commonName = some name →
      ¬ workerMarker.toList <:+: name.val.toList) ↔ ¬ s.Marked := by
    simp [Marked]
  refine ⟨?_, fun w => derived_of_standard⟩
  rw [IdentityValidator.validateService_eq_ok, unmarked, exists_standard_iff]

/-- A service whose common name leaves just the room that is needed. -/
def clockmakers : Identity :=
  ⟨some ⟨"üüüüüüüüüüüüüüüüüüüüüüüüüüüüüüüüüüüüüüüüüüüüüüüüüüü", by decide⟩, none,
    ⟨"Uhren", by decide⟩, ⟨"Esch", by decide⟩, none, ⟨"LU", by decide⟩⟩

theorem validateService_iff_standard_clockmakers :
    IdentityValidator.standard.validateService clockmakers = .ok () ∧
      ∃ w, standard clockmakers = .ok w ∧ Derived clockmakers w := by
  have fits : 1 ≤ (workerCommonName clockmakers).length ∧
      (workerCommonName clockmakers).length ≤ 64 := by
    rw [length_workerCommonName]
    decide
  have named : standard clockmakers =
      .ok { clockmakers with commonName := some ⟨workerCommonName clockmakers, fits⟩ } :=
    standard_eq_ok.mpr ⟨fits, rfl⟩
  obtain ⟨checked, derived⟩ := validateService_iff_standard clockmakers
  refine ⟨checked.mpr ⟨?_, _, named⟩, _, named, derived _ named⟩
  intro name same
  obtain rfl := Option.some.inj same
  rw [← Text.occurs_iff]
  decide

end NotaryNetwork.WorkerNaming
