import NotaryNetwork.Proofs.Build.Topology

/-!
# The rules of resolution

What a resolution comes to, whatever the naming is and however often a service is declared. Four
rules tell it (`Resolves`), each of which applies where those before it do not: a service whose
worker cannot be named is invalid, services and workers that are members overlap, a service overlaps
with one before it that has its worker, and else all services get their workers. A resolution comes
to just what the rules tell (`resolve_eq_iff`).
-/

namespace NotaryNetwork.Topology

/-! ## Rules -/

/-- The second service is the first whose worker has been derived before, by the first one. -/
structure Shares (naming : WorkerNaming) (services : List Identity) (first second worker : Identity) :
    Prop where
  split : ∃ before after, services = before ++ second :: after ∧ (before.map naming).Nodup ∧
    first ∈ before
  first : naming first = .ok worker
  second : naming second = .ok worker

/-- What the resolution of services comes to. A service that is declared again counts once. -/
inductive Resolves (naming : WorkerNaming) (members services : List Identity) :
    Except Failure (Table Identity Identity) → Prop
  /-- The first service whose worker cannot be named is invalid. -/
  | underivable {s : Identity} {issues : List Issue} {text : String}
      (first : IsFirst (Fails naming) services s)
      (refused : naming s = .error (.refused issues)) (shown : s.render = .ok text) :
      Resolves naming members services (.error (.build (.invalidIdentity
        ((s.get? .commonName).getD "") workerMarker (.underivable text ⟨Identity.title, issues⟩))))
  /-- The services and workers that are members are told, in the order in which they come. -/
  | overlap {names : List Identity} {message : String}
      (named : ∀ s ∈ services, ∃ w, naming s = .ok w)
      (met : crossing naming members (distinct services) = names) (shared : names ≠ [])
      (shown : BuildError.ofOverlap (names.map .identity) =
        .ok (.overlap (names.map .identity) message)) :
      Resolves naming members services (.error (.build (.overlap (names.map .identity) message)))
  /-- A service is told with the one before it that derives the same worker. -/
  | shared {first second worker : Identity} {message : String}
      (named : ∀ s ∈ services, ∃ w, naming s = .ok w)
      (apart : crossing naming members (distinct services) = [])
      (shares : Shares naming (distinct services) first second worker)
      (shown : sharedMessage first second worker = .ok message) :
      Resolves naming members services
        (.error (.build (.overlap [.identity first, .identity second] message)))
  /-- Every service has a worker of its own. -/
  | resolved {workers : Table Identity Identity}
      (names : Names naming (distinct services) workers)
      (apart : crossing naming members (distinct services) = [])
      (differ : workers.values.Nodup) :
      Resolves naming members services (.ok workers)

/-! ## Services that share a worker -/

variable {naming : WorkerNaming} {services members : List Identity}
  {workers : Table Identity Identity} {first second worker : Identity}

theorem Names.shares_iff (h : Names naming services workers) :
    sharedWorker? [] workers.entries = some (first, second, worker) ↔
      Shares naming services first second worker := by
  rw [h.shared_iff]
  constructor
  · intro found
    obtain ⟨before, after, split, distinct, earlier, derives, again⟩ := found
    exact ⟨⟨before, after, split, distinct, earlier⟩, derives, again⟩
  · intro shares
    obtain ⟨⟨before, after, split, distinct, earlier⟩, derives, again⟩ := shares
    exact ⟨before, after, split, distinct, earlier, derives, again⟩

theorem Shares.mem (h : Shares naming services first second worker) :
    first ∈ services ∧ second ∈ services := by
  obtain ⟨⟨before, after, rfl, -, earlier⟩, -, -⟩ := h
  constructor
  · exact List.mem_append_left _ earlier
  · exact List.mem_append_right before List.mem_cons_self

theorem checkShared_of_shares (names : Names naming services workers)
    (shares : Shares naming services first second worker) {message : String}
    (shown : sharedMessage first second worker = .ok message) :
    checkShared workers =
      .error (.build (.overlap [.identity first, .identity second] message)) := by
  unfold checkShared
  rw [names.shares_iff.mpr shares]
  exact congrArg Except.error (sharedFailure_eq shown)

/-- Workers are distinct, or a service has the worker of one before it. -/
theorem exists_shares (names : Names naming services workers) :
    checkShared workers = .ok () ∨
      ∃ first second worker, Shares naming services first second worker := by
  unfold checkShared
  cases found : sharedWorker? [] workers.entries with
  | none => exact .inl rfl
  | some triple =>
    obtain ⟨first, second, worker⟩ := triple
    exact .inr ⟨first, second, worker, names.shares_iff.mp found⟩

/-! ## Resolutions -/

variable {ds : List NotaryDeclaration}

theorem exists_names (named : ∀ s ∈ ds.map (·.service), ∃ w, naming s = .ok w) :
    ∃ workers, nameWorkers naming .empty ds = .ok workers ∧
      Names naming (distinct (ds.map (·.service))) workers := by
  obtain ⟨workers, made⟩ := exists_nameWorkers fun d hd =>
    named d.service (List.mem_map.mpr ⟨d, hd, rfl⟩)
  exact ⟨workers, made, names_of_nameWorkers made⟩

/-- What a rule tells is what the resolution comes to. -/
theorem outcome_of_resolves {r : Except Failure (Table Identity Identity)}
    (h : Resolves naming members (ds.map (·.service)) r) :
    (resolve naming members ds).outcome = r := by
  cases h with
  | underivable first refused shown =>
    have failed : nameWorkers naming .empty ds = .error _ :=
      nameWorkers_eq_error.mpr ⟨_, _, first, refused, rfl⟩
    rw [outcome_resolve, failed]
    unfold namingFailure
    rw [shown]
    rfl
  | overlap named met some shown =>
    obtain ⟨workers, made, names⟩ := exists_names named
    have failed := (checkMembers_eq_error names).mpr ⟨met ▸ some, rfl⟩
    rw [outcome_of_named made, failed, met]
    unfold overlapFailure
    rw [shown]
    rfl
  | shared named apart shares shown =>
    obtain ⟨workers, made, names⟩ := exists_names named
    rw [outcome_of_named made, (checkMembers_eq_ok names).mpr apart,
      checkShared_of_shares names shares shown]
    rfl
  | @resolved workers names apart differ =>
    have named : ∀ s ∈ ds.map (·.service), ∃ w, naming s = .ok w := by
      intro s hs
      have key : s ∈ workers.keys := names.keys ▸ mem_distinct.mpr hs
      obtain ⟨entry, member, rfl⟩ := List.mem_map.mp key
      exact ⟨entry.2, names.named entry member⟩
    obtain ⟨workers', made, names'⟩ := exists_names named
    obtain rfl := names.unique names'
    rw [outcome_of_named made, (checkMembers_eq_ok names).mpr apart, checkShared_eq_ok.mpr differ]
    rfl

/-- A rule applies if all names that it may have to show have texts. -/
theorem exists_resolves (memberTexts : ∀ m ∈ members, m.Renderable)
    (texts : ∀ s ∈ ds.map (·.service), s.Renderable)
    (namings : ∀ s ∈ ds.map (·.service), (∃ w, naming s = .ok w ∧ w.Renderable) ∨
      ∃ issues, naming s = .error (.refused issues)) :
    ∃ r, Resolves naming members (ds.map (·.service)) r := by
  by_cases fails : ∃ s ∈ ds.map (·.service), Fails naming s
  · obtain ⟨s, first⟩ := IsFirst.exists_iff.mpr fails
    obtain ⟨text, shown⟩ := texts s first.mem
    rcases namings s first.mem with ⟨w, succeeds, -⟩ | ⟨issues, refused⟩
    · obtain ⟨e, failed⟩ := first.holds
      rw [succeeds] at failed
      cases failed
    · exact ⟨_, .underivable first refused shown⟩
  -- All services have workers now, and these have texts.
  have named : ∀ s ∈ ds.map (·.service), ∃ w, naming s = .ok w ∧ w.Renderable := by
    intro s hs
    rcases namings s hs with named | ⟨issues, refused⟩
    · exact named
    · exact absurd ⟨s, hs, _, refused⟩ fails
  have workersOf : ∀ s ∈ ds.map (·.service), ∃ w, naming s = .ok w := by
    intro s hs
    obtain ⟨w, derived, -⟩ := named s hs
    exact ⟨w, derived⟩
  obtain ⟨workers, -, names⟩ := exists_names workersOf
  by_cases met : crossing naming members (distinct (ds.map (·.service))) = []
  · rcases exists_shares names with differ | ⟨first, second, worker, shares⟩
    · exact ⟨_, .resolved names met (checkShared_eq_ok.mp differ)⟩
    · obtain ⟨earlier, later⟩ := shares.mem
      rw [mem_distinct] at earlier later
      obtain ⟨w, derived, text⟩ := named first earlier
      rw [shares.first] at derived
      cases derived
      obtain ⟨message, shown⟩ := exists_sharedMessage (texts first earlier) (texts second later) text
      exact ⟨_, .shared workersOf met shares shown⟩
  · have shown : ∀ i ∈ crossing naming members (distinct (ds.map (·.service))), i.Renderable := by
      intro i hi
      exact memberTexts i (mem_crossing.mp hi).1
    obtain ⟨message, shown, -⟩ := overlapFailure_of_texts shown
    exact ⟨_, .overlap workersOf rfl met shown⟩

/-- **A resolution comes to what the rules tell, and without declarations to no workers, whatever
the members are.** -/
theorem resolve_eq_iff (memberTexts : ∀ m ∈ members, m.Renderable)
    (texts : ∀ s ∈ ds.map (·.service), s.Renderable)
    (namings : ∀ s ∈ ds.map (·.service), (∃ w, naming s = .ok w ∧ w.Renderable) ∨
      ∃ issues, naming s = .error (.refused issues)) :
    (∀ r, (resolve naming members ds).outcome = r ↔
        Resolves naming members (ds.map (·.service)) r) ∧
      (ds = [] → (resolve naming members ds).outcome = .ok .empty) := by
  constructor
  · intro r
    constructor
    · intro outcome
      obtain ⟨r', rule⟩ := exists_resolves memberTexts texts namings
      have same := outcome_of_resolves rule
      rw [outcome] at same
      rwa [same]
    · exact outcome_of_resolves
  · intro undeclared
    rw [undeclared]
    rfl

/-! ## Two services at one crane -/

/-- A quay, which is declared twice. -/
def quay : Identity :=
  ⟨none, none, ⟨"Cais", by decide⟩, ⟨"Porto", by decide⟩, none, ⟨"PT", by decide⟩⟩

/-- A dock without a common name. -/
def dock : Identity :=
  ⟨none, none, ⟨"Doca", by decide⟩, ⟨"Porto", by decide⟩, none, ⟨"PT", by decide⟩⟩

/-- The worker of both. -/
def crane : Identity :=
  ⟨none, none, ⟨"Guindaste", by decide⟩, ⟨"Porto", by decide⟩, none, ⟨"PT", by decide⟩⟩

/-- A boat, which is a member. -/
def boat : Identity :=
  ⟨none, none, ⟨"Barco", by decide⟩, ⟨"Porto", by decide⟩, none, ⟨"PT", by decide⟩⟩

/-- The declarations of a quay, of a dock and of the quay again. -/
def waterfront : List NotaryDeclaration :=
  [⟨quay, ⟨[13], by decide⟩⟩, ⟨dock, ⟨[13, 14], by decide⟩⟩, ⟨quay, ⟨[14], by decide⟩⟩]

/-- The naming that gives the crane to every service. -/
def hoisted : WorkerNaming := fun _ => .ok crane

/-- The dock is told after the quay, which has the crane before it. -/
theorem resolve_eq_iff_waterfront :
    (∀ m ∈ [boat], m.Renderable) ∧ (∀ s ∈ waterfront.map (·.service), s.Renderable) ∧
      (∀ s ∈ waterfront.map (·.service), (∃ w, hoisted s = .ok w ∧ w.Renderable) ∨
        ∃ issues, hoisted s = .error (.refused issues)) ∧
      ∃ message, (resolve hoisted [boat] waterfront).outcome =
        .error (.build (.overlap [.identity quay, .identity dock] message)) := by
  have memberTexts : ∀ m ∈ [boat], m.Renderable := by
    intro m hm
    obtain rfl := List.mem_singleton.mp hm
    exact ⟨_, rfl⟩
  have texts : ∀ s ∈ waterfront.map (·.service), s.Renderable := by
    intro s hs
    have one : s = quay ∨ s = dock ∨ s = quay := by simpa [waterfront] using hs
    rcases one with rfl | rfl | rfl <;> exact ⟨_, rfl⟩
  have namings : ∀ s ∈ waterfront.map (·.service), (∃ w, hoisted s = .ok w ∧ w.Renderable) ∨
      ∃ issues, hoisted s = .error (.refused issues) :=
    fun s _ => .inl ⟨crane, rfl, _, rfl⟩
  have shares : Shares hoisted (distinct (waterfront.map (·.service))) quay dock crane :=
    ⟨⟨[quay], [], by decide, by simp, List.mem_singleton_self quay⟩, rfl, rfl⟩
  have rule : ∃ message, Resolves hoisted [boat] (waterfront.map (·.service))
      (.error (.build (.overlap [.identity quay, .identity dock] message))) :=
    ⟨_, .shared (fun _ _ => ⟨crane, rfl⟩) (by decide) shares rfl⟩
  obtain ⟨message, rule⟩ := rule
  have decided := (resolve_eq_iff memberTexts texts namings).1
  exact ⟨memberTexts, texts, namings, message, (decided _).mpr rule⟩

end NotaryNetwork.Topology
