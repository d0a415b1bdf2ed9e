import NotaryNetwork.Proofs.Build.Recorded

/-!
# Refusals

A network is refused by the first check that fails, and then the source has not been asked for a
single byte (`build_refused`). No other refusal is possible: the one error of the family that may
come later is a failure to generate a key.
-/

namespace NotaryNetwork.Builder

variable {σ : Type} {b : Builder σ} {c : NetworkConfig}

/-- **The first check that fails decides.** Its error is that of the network, the source is as
before, and a source that keeps a record has been asked for nothing. An error of the family that is
no failure of key generation is one of these, and where no check fails there is a plan that meets
them all. -/
theorem build_refused (clear : b.Renders c) (source : σ) :
    (∀ e, FirstFailure (b.checks c) e →
      b.build c source = (⟨(b.plan c).journal, .error (.build e)⟩, source) ∧
        (b.recorded.build c (source, [])).2 = (source, [])) ∧
    (∀ e, (b.build c source).1.outcome = .error (.build e) →
      FirstFailure (b.checks c) e ∨ ∃ scheme fault, e = .keyGeneration scheme fault) ∧
    ((∀ e, ¬ FirstFailure (b.checks c) e) →
      ∃ plan, (b.plan c).outcome = .ok plan ∧ Planned b c plan) := by
  have decides := plan_refuses clear
  refine ⟨fun e fails => ?_, fun e h => ?_, fun passes => ?_⟩
  · have refused : (b.plan c).outcome = .error (.build e) := (decides _).mpr ⟨e, fails, rfl⟩
    refine ⟨build_of_refusal refused, ?_⟩
    have refused : (b.recorded.plan c).outcome = .error (.build e) := refused
    rw [build_of_refusal refused]
  · rcases build_eq_error h with refused | generated
    · obtain ⟨e', fails, same⟩ := (decides _).mp refused
      cases same
      exact .inl fails
    · exact .inr generated
  · obtain ⟨plan, made⟩ := decides.exists_ok passes
    exact ⟨plan, made, plan_eq_ok made⟩

/-- A builder without schemes, whose source gives no bytes. -/
def schemeless : Builder Unit := ⟨.empty, ⟨fun _ s => (.ok [], s), fun _ => 0⟩, none, fun _ => ""⟩

/-- A notary in Oslo. -/
def oslo : Identity :=
  ⟨none, none, ⟨"R3", by decide⟩, ⟨"Oslo", by decide⟩, none, ⟨"NO", by decide⟩⟩

/-- A configuration whose member is its notary service too. -/
def overlapping : NetworkConfig :=
  ⟨[oslo], [⟨oslo, ⟨[1], by decide⟩⟩], ⟨"CORDA.RSA", by decide⟩, by decide, by decide⟩

theorem build_refused_schemeless :
    schemeless.Renders overlapping ∧
      (schemeless.build overlapping ()).1.outcome =
        .error (.build (.unknownScheme "CORDA.RSA" [])) ∧
      (schemeless.recorded.build overlapping ((), [])).2 = ((), []) := by
  have text : oslo.Renderable := ⟨"O=R3, L=Oslo, C=NO", rfl⟩
  have clear : schemeless.Renders overlapping :=
    ⟨by simpa [overlapping] using text, by simpa [overlapping, NetworkConfig.services] using text,
      fun naming given => nomatch given⟩
  have fails : FirstFailure (schemeless.checks overlapping) (.unknownScheme "CORDA.RSA" []) := by
    refine .inr ⟨?_, .inr ⟨?_, .inl ⟨List.not_mem_nil, rfl⟩⟩⟩
    · rintro e ⟨i, first, name, common, -⟩
      obtain rfl := List.mem_singleton.mp first.mem
      cases common
    · rintro e ⟨i, first, ⟨name, common, -⟩ | ⟨-, -, name, common, -⟩⟩ <;>
        obtain rfl := List.mem_singleton.mp first.mem <;> cases common
  obtain ⟨refused, untouched⟩ := (build_refused clear ()).1 _ fails
  exact ⟨clear, by rw [refused], untouched⟩

end NotaryNetwork.Builder
