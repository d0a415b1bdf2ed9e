/-!
# Journals

What a computation did is told by events in its journal, which is kept when the computation fails.
`Traced` is a computation with a journal; `Job` is one that also draws on a source, whose state it
passes on.
-/

namespace NotaryNetwork

/-- A step that has been done. -/
inductive Event
  | identitiesValidated (count : Nat)
  | servicesValidated (count : Nat)
  | schemeResolved (codeName algorithm : String)
  | servicesResolved (count : Nat)
  | keysGenerated (count : Nat) (codeName : String)
  | parametersEncoded (entries declarations : Nat)
  | networkBuilt (members notaries parameters : Nat) (schemeName : String)
  | nodesStarted (members notaries : Nat) (scope : String)
deriving DecidableEq

def Event.message : Event → String
  | identitiesValidated count => s!"Validated {count} identities"
  | servicesValidated count => s!"Validated {count} notary service(s)"
  | schemeResolved codeName algorithm => s!"Resolved key scheme {codeName} ({algorithm})"
  | servicesResolved count => s!"Resolved {count} notary service(s)"
  | keysGenerated count codeName => s!"Generated {count} key pair(s) with {codeName}"
  | parametersEncoded entries declarations =>
    s!"Encoded {entries} group parameter entries for {declarations} notary service(s)"
  | networkBuilt members notaries parameters schemeName =>
    s!"Built network: {members} member(s), {notaries} notary service(s), {parameters} group parameter(s), scheme={schemeName}"
  | nodesStarted members notaries scope =>
    s!"Starting {members} member node(s) and {notaries} notary worker(s) ({scope})"

/-! ## Computations with a journal -/

/-- A result with the events on the way to it. -/
structure Traced (ε α : Type) where
  journal : List Event
  outcome : Except ε α

namespace Traced

variable {ε α β : Type}

def ofExcept (outcome : Except ε α) : Traced ε α := ⟨[], outcome⟩

def log (event : Event) : Traced ε Unit := ⟨[event], .ok ()⟩

def bind (x : Traced ε α) (f : α → Traced ε β) : Traced ε β :=
  match x.outcome with
  | .error e => ⟨x.journal, .error e⟩
  | .ok a =>
    let rest := f a
    ⟨x.journal ++ rest.journal, rest.outcome⟩

instance : Monad (Traced ε) where
  pure a := ofExcept (.ok a)
  bind := bind

end Traced

/-! ## Computations that draw -/

/-- A computation on the state of a source. -/
def Job (σ ε α : Type) := σ → Traced ε α × σ

namespace Job

variable {σ ε α β : Type}

/-- A computation that does not draw. -/
def ofTraced (x : Traced ε α) : Job σ ε α := fun s => (x, s)

def ofStep (step : σ → Except ε α × σ) : Job σ ε α := fun s =>
  let (outcome, s) := step s
  (Traced.ofExcept outcome, s)

def bind (x : Job σ ε α) (f : α → Job σ ε β) : Job σ ε β := fun s =>
  match x s with
  | (⟨journal, .error e⟩, s) => (⟨journal, .error e⟩, s)
  | (⟨journal, .ok a⟩, s) =>
    let (rest, s) := f a s
    (⟨journal ++ rest.journal, rest.outcome⟩, s)

instance : Monad (Job σ ε) where
  pure a := ofTraced (pure a)
  bind := bind

end Job

end NotaryNetwork
