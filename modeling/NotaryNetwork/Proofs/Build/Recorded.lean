import NotaryNetwork.Proofs.Build.Stages

/-!
# Builders that record requests

A builder whose source also keeps the lengths that it has been asked for. Recording changes neither
what is built nor the state of the source (`build_recorded`), so the record of such a builder says
what any builder asks for.
-/

namespace NotaryNetwork

variable {σ α β : Type}

/-- A source that also keeps the lengths that it has been asked for. -/
def Random.recorded (draw : Random.Draw σ) : Random.Draw (σ × List Int) := fun length s =>
  ((draw length s.1).1, (draw length s.1).2, s.2 ++ [length])

/-- The provisioner with a source that keeps a record. -/
def Provisioner.recorded (p : Provisioner σ) : Provisioner (σ × List Int) :=
  ⟨Random.recorded p.draw, p.rsaModulus⟩

/-- The builder with a source that keeps a record. -/
def Builder.recorded (b : Builder σ) : Builder (σ × List Int) :=
  ⟨b.registry, b.provisioner.recorded, b.naming, b.encodeKey⟩

/-- A step on a state with a record gives what a step on the state alone does. -/
def Follows (x : σ × List Int → α × (σ × List Int)) (y : σ → α × σ) : Prop :=
  ∀ s, (x s).1 = (y s.1).1 ∧ (x s).2.1 = (y s.1).2

namespace Provisioner

variable {p : Provisioner σ} {scheme : KeyScheme}

theorem drawKey_recorded (length : Nat) (make : Bytes → Except KeyFault PrivateKey) :
    Follows (p.recorded.drawKey length make) (p.drawKey length make) := by
  intro s
  unfold drawKey
  have answer : p.recorded.draw length s =
      ((p.draw length s.1).1, (p.draw length s.1).2, s.2 ++ [(length : Int)]) := rfl
  rw [answer]
  rcases p.draw length s.1 with ⟨bytes | fault, s'⟩ <;> exact ⟨rfl, rfl⟩

theorem generateKey_recorded (p : Provisioner σ) (scheme : KeyScheme) :
    Follows (p.recorded.generateKey scheme) (p.generateKey scheme) := by
  intro s
  unfold generateKey
  split
  · cases scheme.curve.bind NamedCurve.ofName? with
    | none => exact ⟨rfl, rfl⟩
    | some curve => exact drawKey_recorded _ _ s
  split
  · exact drawKey_recorded _ _ s
  split
  · exact drawKey_recorded _ _ s
  split <;> exact ⟨rfl, rfl⟩

theorem generatePair_recorded (p : Provisioner σ) (scheme : KeyScheme) :
    Follows (p.recorded.generatePair scheme) (p.generatePair scheme) := by
  intro s
  obtain ⟨key, state⟩ := generateKey_recorded p scheme s
  unfold generatePair
  rcases run : p.recorded.generateKey scheme s with ⟨outcome, s'⟩
  rcases run' : p.generateKey scheme s.1 with ⟨outcome', s''⟩
  rw [run, run'] at key state
  obtain rfl : outcome = outcome' := key
  obtain rfl : s'.1 = s'' := state
  cases outcome <;> exact ⟨rfl, rfl⟩

theorem generateInto_recorded (is : List Identity) (made : Table Identity KeyPair) :
    Follows (p.recorded.generateInto scheme made is) (p.generateInto scheme made is) := by
  induction is generalizing made with
  | nil => exact fun s => ⟨rfl, rfl⟩
  | cons i is ih =>
    intro s
    obtain ⟨pair, state⟩ := generatePair_recorded p scheme s
    cases first : (p.generatePair scheme s.1).1 with
    | error f =>
      rw [generateInto_cons_of_error first, generateInto_cons_of_error (pair.trans first)]
      exact ⟨rfl, state⟩
    | ok key =>
      rw [generateInto_cons_of_ok first, generateInto_cons_of_ok (pair.trans first), ← state]
      exact ih (made.insert i key) _

end Provisioner

/-! ## Jobs -/

theorem Job.bind_follows {ε : Type} {x : Job (σ × List Int) ε α} {y : Job σ ε α}
    {f : α → Job (σ × List Int) ε β} {g : α → Job σ ε β} (first : Follows x y)
    (next : ∀ a, Follows (f a) (g a)) : Follows (x >>= f) (y >>= g) := by
  intro s
  show (Job.bind x f s).1 = (Job.bind y g s.1).1 ∧ (Job.bind x f s).2.1 = (Job.bind y g s.1).2
  unfold Job.bind
  obtain ⟨outcome, state⟩ := first s
  rcases run : x s with ⟨⟨journal, result⟩, s'⟩
  rcases run' : y s.1 with ⟨⟨journal', result'⟩, s''⟩
  rw [run, run'] at outcome state
  cases outcome
  obtain rfl : s'.1 = s'' := state
  cases result with
  | error e => exact ⟨rfl, rfl⟩
  | ok a =>
    obtain ⟨rest, last⟩ := next a s'
    refine ⟨?_, last⟩
    show (⟨journal ++ (f a s').1.journal, (f a s').1.outcome⟩ : Traced ε β) = _
    rw [rest]

theorem Job.ofTraced_follows {ε : Type} (x : Traced ε α) :
    Follows (Job.ofTraced x : Job (σ × List Int) ε α) (Job.ofTraced x) := fun _ => ⟨rfl, rfl⟩

theorem Job.ofStep_follows {ε : Type} {x : σ × List Int → Except ε α × (σ × List Int)}
    {y : σ → Except ε α × σ} (h : Follows x y) : Follows (Job.ofStep x) (Job.ofStep y) := by
  intro s
  obtain ⟨outcome, state⟩ := h s
  exact ⟨congrArg Traced.ofExcept outcome, state⟩

theorem Provisioner.generatePairs_recorded {p : Provisioner σ} {scheme : KeyScheme}
    (is : List Identity) :
    Follows (p.recorded.generatePairs scheme is) (p.generatePairs scheme is) := by
  unfold generatePairs
  refine Job.bind_follows (Job.ofStep_follows (generateInto_recorded is .empty)) fun pairs => ?_
  exact Job.bind_follows (Job.ofTraced_follows _) fun _ => Job.ofTraced_follows _

/-! ## Builders -/

namespace Builder

variable {b : Builder σ} {c : NetworkConfig}

theorem provisionNotaries_recorded (plan : Plan) :
    Follows (b.recorded.provisionNotaries plan) (b.provisionNotaries plan) := by
  by_cases workerless : plan.workers.values = []
  · rw [provisionNotaries_of_nil workerless, provisionNotaries_of_nil workerless]
    exact Job.ofTraced_follows _
  · rw [provisionNotaries_of_ne_nil workerless, provisionNotaries_of_ne_nil workerless]
    exact Provisioner.generatePairs_recorded _

/-- **A record of the requests changes nothing that is built, and no state.** -/
theorem build_recorded (b : Builder σ) (c : NetworkConfig) :
    Follows (b.recorded.build c) (b.build c) := by
  refine Job.bind_follows (Job.ofTraced_follows (b.plan c)) fun plan => ?_
  refine Job.bind_follows (Provisioner.generatePairs_recorded c.members) fun members => ?_
  refine Job.bind_follows (provisionNotaries_recorded plan) fun notaries => ?_
  refine Job.bind_follows (Job.ofTraced_follows (b.encodeParameters c plan notaries)) fun ps => ?_
  exact Job.bind_follows (Job.ofTraced_follows _) fun _ => Job.ofTraced_follows _

end Builder

end NotaryNetwork
