import Mathlib.Data.List.Induction
import NotaryNetwork.Proofs.Build.Topology

/-!
# Services without workers

A naming fails on a service where the fields of the worker are refused, or where it reads a text
that spells no fields. A resolution is meant to turn the first service without a worker into an
error of the family that carries the common name of the service (`Turns`). It does so if and only if
the fields of that worker are refused; a failure to read its text comes out as it is
(`turns_iff`).
-/

namespace NotaryNetwork

namespace Topology

/-- The first service without a worker is invalid, and no failure of a naming comes out as it is. -/
structure Turns (naming : WorkerNaming) (members : List Identity) (ds : List NotaryDeclaration) :
    Prop where
  invalid : ∀ s, IsFirst (Fails naming) (ds.map (·.service)) s →
    ∃ fault, (resolve naming members ds).outcome =
      .error (.build (.invalidIdentity ((s.get? .commonName).getD "") workerMarker fault))
  family : ∀ e, (resolve naming members ds).outcome ≠ .error (.naming e)

variable {naming : WorkerNaming} {members : List Identity} {ds : List NotaryDeclaration}
  {s : Identity} {e : Identity.ParseError}

/-- The first service without a worker decides. -/
theorem outcome_of_first (first : IsFirst (Fails naming) (ds.map (·.service)) s)
    (fails : naming s = .error e) :
    (resolve naming members ds).outcome = .error (namingFailure s e) := by
  have failed : nameWorkers naming .empty ds = .error (namingFailure s e) :=
    nameWorkers_eq_error.mpr ⟨s, e, first, fails, rfl⟩
  rw [outcome_resolve, failed]
  rfl

theorem namingFailure_refused (text : s.Renderable) (issues : List Issue) :
    ∃ fault, namingFailure s (.refused issues) =
      .build (.invalidIdentity ((s.get? .commonName).getD "") workerMarker fault) := by
  obtain ⟨shown, text⟩ := text
  unfold namingFailure
  rw [text]
  exact ⟨_, rfl⟩

/-- A text that spells no fields is told as it is. -/
theorem namingFailure_of_unread (unread : ∀ issues, e ≠ .refused issues) :
    namingFailure s e = .naming e := by
  cases e with
  | refused issues => exact absurd rfl (unread issues)
  | _ => rfl

theorem checkMembers_ne_naming (workers : Table Identity Identity) :
    checkMembers members workers ≠ .error (.naming e) := by
  intro same
  unfold checkMembers overlapFailure at same
  split at same
  · cases same
  · split at same <;> cases same

theorem checkShared_ne_naming (workers : Table Identity Identity) :
    checkShared workers ≠ .error (.naming e) := by
  intro same
  unfold checkShared sharedFailure at same
  split at same
  · cases same
  · split at same <;> cases same

/-- Where all services have workers the naming is not to blame. -/
theorem outcome_ne_naming (named : ∀ d ∈ ds, ∃ w, naming d.service = .ok w) :
    (resolve naming members ds).outcome ≠ .error (.naming e) := by
  intro h
  obtain ⟨workers, made⟩ := exists_nameWorkers named
  rw [outcome_of_named made] at h
  rcases bind_eq_error.mp h with met | ⟨_, -, h⟩
  · exact checkMembers_ne_naming workers met
  rcases bind_eq_error.mp h with shared | ⟨_, -, h⟩
  · exact checkShared_ne_naming workers shared
  · cases h

/-- A text that spells no fields comes out as it is. -/
theorem outcome_of_unread (first : IsFirst (Fails naming) (ds.map (·.service)) s)
    (fails : naming s = .error e) (unread : ∀ issues, e ≠ .refused issues) :
    (resolve naming members ds).outcome = .error (.naming e) := by
  rw [outcome_of_first first fails, namingFailure_of_unread unread]

/-- **The first service without a worker is turned into an error of the family if and only if the
fields of its worker are refused; a failure to read its text comes out as it is.** -/
theorem turns_iff (texts : ∀ s ∈ ds.map (·.service), s.Renderable) :
    (Turns naming members ds ↔ ∀ s e, IsFirst (Fails naming) (ds.map (·.service)) s →
        naming s = .error e → ∃ issues, e = .refused issues) ∧
      ∀ s e, IsFirst (Fails naming) (ds.map (·.service)) s → naming s = .error e →
        (∀ issues, e ≠ .refused issues) →
        (resolve naming members ds).outcome = .error (.naming e) := by
  refine ⟨⟨?_, ?_⟩, fun s e => outcome_of_unread⟩
  · intro turns s e first fails
    cases e with
    | refused issues => exact ⟨issues, rfl⟩
    | _ => exact absurd (outcome_of_unread first fails nofun) (turns.family _)
  · intro refused
    have turned : ∀ s, IsFirst (Fails naming) (ds.map (·.service)) s →
        ∃ fault, (resolve naming members ds).outcome =
          .error (.build (.invalidIdentity ((s.get? .commonName).getD "") workerMarker fault)) := by
      intro s first
      obtain ⟨e, fails⟩ := first.holds
      obtain ⟨issues, rfl⟩ := refused s e first fails
      obtain ⟨fault, told⟩ := namingFailure_refused (texts s first.mem) issues
      rw [outcome_of_first first fails, told]
      exact ⟨fault, rfl⟩
    refine ⟨turned, fun e => ?_⟩
    by_cases fails : ∃ s ∈ ds.map (·.service), Fails naming s
    · obtain ⟨s, first⟩ := IsFirst.exists_iff.mpr fails
      obtain ⟨fault, outcome⟩ := turned s first
      rw [outcome]
      exact nofun
    · apply outcome_ne_naming
      intro d hd
      cases named : naming d.service with
      | ok w => exact ⟨w, rfl⟩
      | error e => exact absurd ⟨d.service, List.mem_map.mpr ⟨d, hd, rfl⟩, e, named⟩ fails

/-! ## A customs office -/

/-- A customs office with a comma in its common name. -/
def customs : Identity :=
  ⟨some ⟨"Zoll, Nord", by decide⟩, none, ⟨"Zollamt", by decide⟩, ⟨"Linz", by decide⟩, none,
    ⟨"AT", by decide⟩⟩

/-- The declaration of the customs office. -/
def customsDeclaration : NotaryDeclaration := ⟨customs, ⟨[15], by decide⟩⟩

theorem renderable_customs : ∀ s ∈ [customsDeclaration].map (·.service), s.Renderable := by
  intro s hs
  obtain rfl := List.mem_singleton.mp hs
  exact ⟨_, rfl⟩

/-- The naming that makes a worker of the fields of its service, with another country. -/
def relocated (country : String) : WorkerNaming := fun service =>
  (service.override fun
    | .country => some (.string country)
    | _ => none).mapError .refused

/-- A country in small letters is refused. -/
theorem turns_iff_relocated :
    (∀ s ∈ [customsDeclaration].map (·.service), s.Renderable) ∧
      Fails (relocated "at") customs ∧ Turns (relocated "at") [] [customsDeclaration] := by
  refine ⟨renderable_customs, ⟨_, rfl⟩, (turns_iff renderable_customs).1.mpr ?_⟩
  intro s e _ fails
  obtain ⟨issues, -, rfl⟩ := mapError_eq_error.mp fails
  exact ⟨issues, rfl⟩

/-- The naming that reads a text with the common name of the service as it is. -/
def spliced : WorkerNaming := fun service =>
  Identity.parse ("CN=" ++ (service.get? .commonName).getD "" ++
    " NotaryWorker, O=Zollamt, L=Linz, C=AT")

/-- The comma of the common name ends the attribute, and what is behind it is none. -/
theorem spliced_customs : spliced customs =
    .error (.malformed "CN=Zoll, Nord NotaryWorker, O=Zollamt, L=Linz, C=AT" .malformed) := by
  decide +kernel

/-- The text is malformed, and the resolution fails with that. -/
theorem not_turns_spliced :
    (∀ s ∈ [customsDeclaration].map (·.service), s.Renderable) ∧
      ¬ Turns spliced [] [customsDeclaration] := by
  refine ⟨renderable_customs, ?_⟩
  intro turns
  have fails : Fails spliced customs := ⟨_, spliced_customs⟩
  have first : IsFirst (Fails spliced) ([customsDeclaration].map (·.service)) customs :=
    ⟨[], [], rfl, fun _ member => absurd member List.not_mem_nil, fails⟩
  have outcome : (resolve spliced [] [customsDeclaration]).outcome = .error (.naming _) :=
    outcome_of_unread first spliced_customs nofun
  exact turns.family _ outcome

end Topology

end NotaryNetwork
