import NotaryNetwork.Build.Topology
import NotaryNetwork.Proofs.Identity.Rendering
import NotaryNetwork.Proofs.Outcome
import NotaryNetwork.Proofs.Table

/-!
# Services and their workers

What the resolution of services finds out: the worker of every service (`names_of_nameWorkers`), the
services and workers that are members (`overlap_eq_crossing`), and the first service whose worker
another one has already (`sharedWorker?_eq_some_iff`). The workers are determined by the services and
the naming (`Names.unique`).
-/

namespace NotaryNetwork.Topology

/-! ## Naming -/

/-- The table has the services in their order, each with the worker that the naming gives it. -/
structure Names (naming : WorkerNaming) (services : List Identity)
    (workers : Table Identity Identity) : Prop where
  keys : workers.keys = services
  named : ∀ entry ∈ workers.entries, naming entry.1 = .ok entry.2

/-- A service that is named has its worker at the place where it first came. -/
theorem Names.insert {naming : WorkerNaming} {services : List Identity}
    {workers : Table Identity Identity} (h : Names naming services workers) {s w : Identity}
    (name : naming s = .ok w) :
    Names naming (distinct (services ++ [s])) (workers.insert s w) := by
  obtain ⟨rfl, named⟩ := h
  constructor
  · rw [distinct_concat, distinct_of_nodup workers.nodup_keys]
    exact keys_put s w workers.entries
  · intro entry member
    rcases mem_put member with rfl | member
    · exact name
    · exact named entry member

theorem Names.nameWorkers {naming : WorkerNaming} {services : List Identity}
    {start workers : Table Identity Identity} (h : Names naming services start)
    {ds : List NotaryDeclaration} (made : nameWorkers naming start ds = .ok workers) :
    Names naming (distinct (services ++ ds.map (·.service))) workers := by
  -- One service more is named with every declaration, and what comes later is distinct as before.
  induction ds generalizing services start with
  | nil =>
    cases made
    have nodup : services.Nodup := h.keys ▸ workers.nodup_keys
    rw [List.map_nil, List.append_nil, distinct_of_nodup nodup]
    exact h
  | cons d ds ih =>
    rw [Topology.nameWorkers] at made
    cases name : naming d.service with
    | error e =>
      rw [name] at made
      cases made
    | ok worker =>
      rw [name] at made
      have rest := ih (h.insert name) made
      rwa [distinct_distinct_append, ← List.append_cons] at rest

/-- **Where the naming succeeds on all services the table names their workers.** A service that is
declared again keeps its place. -/
theorem names_of_nameWorkers {naming : WorkerNaming} {ds : List NotaryDeclaration}
    {workers : Table Identity Identity} (h : nameWorkers naming .empty ds = .ok workers) :
    Names naming (distinct (ds.map (·.service))) workers :=
  have unnamed : Names naming [] .empty := ⟨rfl, fun _ member => nomatch member⟩
  unnamed.nameWorkers h

theorem nameWorkers_eq_ok {naming : WorkerNaming} {ds : List NotaryDeclaration}
    {workers : Table Identity Identity} (nodup : (ds.map (·.service)).Nodup)
    (h : nameWorkers naming .empty ds = .ok workers) :
    Names naming (ds.map (·.service)) workers := by
  have names := names_of_nameWorkers h
  rwa [distinct_of_nodup nodup] at names

/-- The naming gives no worker to a service. -/
def Fails (naming : WorkerNaming) (s : Identity) : Prop := ∃ e, naming s = .error e

/-- The first service that the naming fails on decides the failure. -/
theorem nameWorkers_eq_error {naming : WorkerNaming} {named : Table Identity Identity}
    {ds : List NotaryDeclaration} {f : Failure} :
    nameWorkers naming named ds = .error f ↔
      ∃ s e, IsFirst (Fails naming) (ds.map (·.service)) s ∧
        naming s = .error e ∧ f = namingFailure s e := by
  induction ds generalizing named with
  | nil => simp [nameWorkers, IsFirst.not_nil]
  | cons d ds ih =>
    simp only [nameWorkers, List.map_cons, IsFirst.cons_iff, Fails]
    cases name : naming d.service with
    | ok worker => simp [ih]
    | error e =>
      constructor
      · intro same
        cases same
        exact ⟨d.service, e, .inl ⟨⟨e, rfl⟩, rfl⟩, name, rfl⟩
      · rintro ⟨s, e', ⟨-, rfl⟩ | ⟨named, -⟩, name', rfl⟩
        · rw [name] at name'
          cases name'
          rfl
        · exact absurd ⟨e, rfl⟩ named

/-- A naming that succeeds on all services names their workers. -/
theorem exists_nameWorkers {naming : WorkerNaming} {ds : List NotaryDeclaration}
    (named : ∀ d ∈ ds, ∃ w, naming d.service = .ok w) :
    ∃ workers, nameWorkers naming .empty ds = .ok workers := by
  cases made : nameWorkers naming .empty ds with
  | ok workers => exact ⟨workers, rfl⟩
  | error f =>
    obtain ⟨s, e, first, fails, -⟩ := nameWorkers_eq_error.mp made
    obtain ⟨d, member, rfl⟩ := List.mem_map.mp first.mem
    obtain ⟨w, succeeds⟩ := named d member
    rw [succeeds] at fails
    cases fails

/-- The services and the naming determine the entries. -/
theorem eq_of_named {naming : WorkerNaming} {entries entries' : List (Identity × Identity)}
    (keys : entries.map (·.1) = entries'.map (·.1))
    (named : ∀ entry ∈ entries, naming entry.1 = .ok entry.2)
    (named' : ∀ entry ∈ entries', naming entry.1 = .ok entry.2) : entries = entries' := by
  induction entries generalizing entries' with
  | nil =>
    cases entries' with
    | nil => rfl
    | cons entry rest => cases keys
  | cons entry rest ih =>
    cases entries' with
    | nil => cases keys
    | cons entry' rest' =>
      obtain ⟨service, keys⟩ := List.cons.inj keys
      have service : entry.1 = entry'.1 := service
      have worker : (.ok entry.2 : Except Identity.ParseError Identity) = .ok entry'.2 := by
        rw [← named entry List.mem_cons_self, ← named' entry' List.mem_cons_self, service]
      have same : entry = entry' := Prod.ext service (Except.ok.inj worker)
      rw [same, ih keys (fun e he => named e (List.mem_cons_of_mem _ he))
        (fun e he => named' e (List.mem_cons_of_mem _ he))]

namespace Names

variable {naming : WorkerNaming} {services : List Identity}
  {workers workers' : Table Identity Identity}

theorem nodup (h : Names naming services workers) : services.Nodup :=
  h.keys ▸ workers.nodup_keys

theorem get?_eq_some_iff (h : Names naming services workers) {s w : Identity} :
    workers.get? s = some w ↔ s ∈ services ∧ naming s = .ok w := by
  rw [Table.get?_eq_some_iff]
  constructor
  · intro member
    refine ⟨?_, h.named _ member⟩
    rw [← h.keys]
    exact List.mem_map.mpr ⟨(s, w), member, rfl⟩
  · rintro ⟨member, name⟩
    rw [← h.keys] at member
    obtain ⟨⟨s', w'⟩, entry, rfl⟩ := List.mem_map.mp member
    have := h.named _ entry
    rw [name] at this
    cases this
    exact entry

theorem mem_values_iff (h : Names naming services workers) {w : Identity} :
    w ∈ workers.values ↔ ∃ s ∈ services, naming s = .ok w := by
  have entry : ∀ s, (s, w) ∈ workers.entries ↔ s ∈ services ∧ naming s = .ok w := fun s => by
    rw [← h.get?_eq_some_iff, Table.get?_eq_some_iff]
  rw [Table.values_eq_map, List.mem_map]
  constructor
  · rintro ⟨⟨s, w'⟩, member, rfl⟩
    exact ⟨s, (entry s).mp member⟩
  · rintro ⟨s, hs⟩
    exact ⟨(s, w), (entry s).mpr hs, rfl⟩

/-- A naming that gives different services different workers makes no two alike. -/
theorem nodup_values (h : Names naming services workers)
    (injective : ∀ {s t w}, naming s = .ok w → naming t = .ok w → s = t) :
    workers.values.Nodup := by
  have keys : workers.entries.Pairwise fun a b => a.1 ≠ b.1 := List.pairwise_map.mp workers.nodup
  rw [Table.values_eq_map]
  refine List.pairwise_map.mpr (keys.imp_of_mem fun {a b} ha hb apart same => apart ?_)
  have named := h.named b hb
  rw [← same] at named
  exact injective (h.named a ha) named

theorem unique (h : Names naming services workers) (h' : Names naming services workers') :
    workers' = workers :=
  Table.eq_of_entries (eq_of_named (h'.keys.trans h.keys.symm) h'.named h.named)

/-- One more service has its worker behind the others. -/
theorem append {s : Identity} (h : Names naming services workers)
    (h' : Names naming (services ++ [s]) workers') :
    ∃ w, workers'.entries = workers.entries ++ [(s, w)] := by
  obtain ⟨first, last, split, firstKeys, lastKeys⟩ := List.map_eq_append_iff.mp h'.keys
  obtain ⟨⟨s', w⟩, rfl, rfl⟩ := List.map_eq_singleton_iff.mp lastKeys
  refine ⟨w, ?_⟩
  have named' := h'.named
  rw [split] at named' ⊢
  rw [eq_of_named (firstKeys.trans h.keys.symm)
    (fun e he => named' e (List.mem_append_left _ he)) h.named]

end Names

/-! ## Members that are services or workers -/

/-- The services and their workers that are members, in the order of the services, each once. -/
def crossing (naming : WorkerNaming) (members services : List Identity) : List Identity :=
  distinct ((services.flatMap fun s => s :: (naming s).toOption.toList).filter (· ∈ members))

theorem mem_crossing {naming : WorkerNaming} {members services : List Identity} {i : Identity} :
    i ∈ crossing naming members services ↔
      i ∈ members ∧ (i ∈ services ∨ ∃ s ∈ services, naming s = .ok i) := by
  have worker : ∀ s, i ∈ (naming s).toOption.toList ↔ naming s = .ok i := fun s => by
    cases naming s <;> simp [Except.toOption, eq_comm]
  unfold crossing
  rw [mem_distinct, List.mem_filter, List.mem_flatMap, and_comm, decide_eq_true_eq]
  simp only [List.mem_cons, worker]
  constructor
  · rintro ⟨member, s, hs, rfl | name⟩
    · exact ⟨member, .inl hs⟩
    · exact ⟨member, .inr ⟨s, hs, name⟩⟩
  · rintro ⟨member, hs | ⟨s, hs, name⟩⟩
    · exact ⟨member, i, hs, .inl rfl⟩
    · exact ⟨member, s, hs, .inr name⟩

theorem crossing_eq_nil_iff {naming : WorkerNaming} {members services : List Identity} :
    crossing naming members services = [] ↔
      ∀ i ∈ members, i ∉ services ∧ ∀ s ∈ services, naming s ≠ .ok i := by
  rw [List.eq_nil_iff_forall_not_mem]
  simp only [mem_crossing, not_and, not_or, not_exists]

theorem overlap_eq_crossing {naming : WorkerNaming} {services : List Identity}
    {workers : Table Identity Identity} (h : Names naming services workers)
    (members : List Identity) : overlap members workers = crossing naming members services := by
  have each : ∀ entry ∈ workers.entries,
      [entry.1, entry.2] = entry.1 :: (naming entry.1).toOption.toList := by
    intro entry member
    rw [h.named entry member]
    rfl
  have all : candidates workers = services.flatMap fun s => s :: (naming s).toOption.toList := by
    rw [← h.keys, Table.keys_eq_map, List.flatMap_map, candidates]
    exact congrArg List.flatten (List.map_congr_left each)
  rw [overlap, all, crossing]

/-- An overlap is told if all its names have texts. -/
theorem exists_ofOverlap_iff {names : List Identity} :
    (∃ e, BuildError.ofOverlap (names.map .identity) = .ok e) ↔ ∀ i ∈ names, i.Renderable := by
  unfold BuildError.ofOverlap
  constructor
  · rintro ⟨e, h⟩ i hi
    obtain ⟨texts, shown, -⟩ := bind_eq_ok.mp h
    exact ok_of_mapM shown (.identity i) (List.mem_map.mpr ⟨i, hi, rfl⟩)
  · intro h
    have shown : ∃ texts,
        (names.map OverlapName.identity).mapM BuildError.overlapText = .ok texts := by
      refine exists_mapM_ok fun name hn => ?_
      obtain ⟨i, hi, rfl⟩ := List.mem_map.mp hn
      exact h i hi
    obtain ⟨texts, shown⟩ := shown
    rw [shown]
    exact ⟨_, rfl⟩

/-- An overlap is an error of the family, unless one of its names has no text. -/
theorem overlapFailure_eq (names : List Identity) :
    (∃ e, overlapFailure names = .build e) ∧ (∀ i ∈ names, i.Renderable) ∨
      (∃ fault, overlapFailure names = .unrenderable fault) ∧ ¬ ∀ i ∈ names, i.Renderable := by
  rw [← exists_ofOverlap_iff]
  unfold overlapFailure
  cases BuildError.ofOverlap (names.map .identity) with
  | ok e => exact .inl ⟨⟨e, rfl⟩, e, rfl⟩
  | error fault => exact .inr ⟨⟨fault, rfl⟩, fun ⟨e, h⟩ => nomatch h⟩

/-- Names that all have texts are told by the error of an overlap. -/
theorem overlapFailure_of_texts {names : List Identity} (texts : ∀ i ∈ names, i.Renderable) :
    ∃ message, BuildError.ofOverlap (names.map .identity) =
        .ok (.overlap (names.map .identity) message) ∧
      overlapFailure names = .build (.overlap (names.map .identity) message) := by
  obtain ⟨e, told⟩ := exists_ofOverlap_iff.mpr texts
  have overlap : ∃ message, e = .overlap (names.map .identity) message := by
    obtain ⟨shown, -, made⟩ := bind_eq_ok.mp told
    cases made
    exact ⟨_, rfl⟩
  obtain ⟨message, rfl⟩ := overlap
  refine ⟨message, told, ?_⟩
  unfold overlapFailure
  rw [told]

/-! ## Services that share a worker -/

/-- What `sharedWorker?` remembers of the entries that it has passed. -/
def passed (done : List (Identity × Identity)) : List (Identity × Identity) :=
  done.reverse.map Prod.swap

theorem lookup_passed {done : List (Identity × Identity)} (nodup : (done.map (·.2)).Nodup)
    (s w : Identity) : (passed done).lookup w = some s ↔ (s, w) ∈ done := by
  have keys : ((passed done).map (·.1)).Nodup := by
    rw [passed, List.map_map, List.map_reverse]
    exact List.pairwise_reverse.mpr (nodup.imp Ne.symm)
  rw [lookup_eq_some_iff_mem keys, passed, List.mem_map]
  constructor
  · rintro ⟨⟨s', w'⟩, member, e⟩
    cases e
    exact List.mem_reverse.mp member
  · intro member
    exact ⟨(s, w), List.mem_reverse.mpr member, rfl⟩

theorem passed_append (done : List (Identity × Identity)) (s w : Identity) :
    passed (done ++ [(s, w)]) = (w, s) :: passed done := by
  simp [passed]

theorem absent_of_lookup {done : List (Identity × Identity)} (nodup : (done.map (·.2)).Nodup)
    {w : Identity} (h : (passed done).lookup w = none) : w ∉ done.map (·.2) := by
  intro member
  obtain ⟨⟨s, w'⟩, entry, rfl⟩ := List.mem_map.mp member
  have found := (lookup_passed nodup s w').mpr entry
  rw [h] at found
  cases found

theorem nodup_append_singleton {done : List (Identity × Identity)}
    (nodup : (done.map (·.2)).Nodup) {w : Identity} (h : (passed done).lookup w = none)
    (s : Identity) : ((done ++ [(s, w)]).map (·.2)).Nodup := by
  rw [List.map_append]
  refine List.nodup_append.mpr ⟨nodup, by simp, ?_⟩
  intro x hx y hy same
  obtain rfl : y = w := by simpa using hy
  exact absent_of_lookup nodup h (same ▸ hx)

theorem not_nodup_append {done : List (Identity × Identity)} {s w : Identity} (h : (s, w) ∈ done)
    (s' : Identity) (rest : List (Identity × Identity)) :
    ¬ ((done ++ (s', w) :: rest).map (·.2)).Nodup := by
  intro nodup
  rw [List.map_append, List.map_cons] at nodup
  exact (List.nodup_append.mp nodup).2.2 w (List.mem_map.mpr ⟨(s, w), h, rfl⟩) w
    List.mem_cons_self rfl

theorem sharedWorker?_passed {done entries : List (Identity × Identity)}
    (nodup : (done.map (·.2)).Nodup) {first second worker : Identity} :
    sharedWorker? (passed done) entries = some (first, second, worker) ↔
      ∃ before after, entries = before ++ (second, worker) :: after ∧
        ((done ++ before).map (·.2)).Nodup ∧ (first, worker) ∈ done ++ before := by
  -- The search goes on only behind distinct workers, so each of those has one service.
  induction entries generalizing done with
  | nil => simp [sharedWorker?]
  | cons entry entries ih =>
    obtain ⟨s, w⟩ := entry
    rw [sharedWorker?]
    cases found : (passed done).lookup w with
    | some f =>
      have member := (lookup_passed nodup f w).mp found
      constructor
      · intro same
        cases same
        exact ⟨[], entries, rfl, by simpa using nodup, by simpa using member⟩
      · rintro ⟨before, after, e, distinct, shared⟩
        cases before with
        | nil =>
          cases e
          rw [List.append_nil] at shared
          have same := (lookup_passed nodup first _).mpr shared
          rw [found] at same
          cases same
          rfl
        | cons entry before =>
          obtain ⟨rfl, -⟩ := List.cons.inj e
          exact absurd distinct (not_nodup_append member s before)
    | none =>
      have absent : (first, w) ∉ done := fun member =>
        absent_of_lookup nodup found (List.mem_map.mpr ⟨(first, w), member, rfl⟩)
      rw [← passed_append, ih (nodup_append_singleton nodup found s)]
      constructor
      · rintro ⟨before, after, rfl, distinct, shared⟩
        refine ⟨(s, w) :: before, after, rfl, ?_, ?_⟩
        · rw [List.append_cons]
          exact distinct
        · rw [List.append_cons]
          exact shared
      · rintro ⟨before, after, e, distinct, shared⟩
        cases before with
        | nil =>
          cases e
          rw [List.append_nil] at shared
          exact absurd shared absent
        | cons entry before =>
          obtain ⟨rfl, rfl⟩ := List.cons.inj e
          rw [List.append_cons] at distinct shared
          exact ⟨before, after, rfl, distinct, shared⟩

/-- **The first entry whose worker has come before is found, with the service that had it then.** -/
theorem sharedWorker?_eq_some_iff {entries : List (Identity × Identity)}
    {first second worker : Identity} :
    sharedWorker? [] entries = some (first, second, worker) ↔
      ∃ before after, entries = before ++ (second, worker) :: after ∧
        (before.map (·.2)).Nodup ∧ (first, worker) ∈ before := by
  have nodup : (([] : List (Identity × Identity)).map (·.2)).Nodup := List.nodup_nil
  exact sharedWorker?_passed nodup

theorem sharedWorker?_passed_eq_none {done entries : List (Identity × Identity)}
    (nodup : (done.map (·.2)).Nodup) :
    sharedWorker? (passed done) entries = none ↔ ((done ++ entries).map (·.2)).Nodup := by
  induction entries generalizing done with
  | nil => simpa [sharedWorker?] using nodup
  | cons entry entries ih =>
    obtain ⟨s, w⟩ := entry
    rw [sharedWorker?]
    cases found : (passed done).lookup w with
    | some f =>
      have repeated := not_nodup_append ((lookup_passed nodup f w).mp found) s entries
      exact ⟨fun h => (by cases h), fun h => absurd h repeated⟩
    | none =>
      rw [← passed_append, ih (nodup_append_singleton nodup found s), ← List.append_cons]

theorem sharedWorker?_eq_none_iff {entries : List (Identity × Identity)} :
    sharedWorker? [] entries = none ↔ (entries.map (·.2)).Nodup := by
  have nodup : (([] : List (Identity × Identity)).map (·.2)).Nodup := List.nodup_nil
  exact sharedWorker?_passed_eq_none nodup

/-! ## What is said of a shared worker -/

theorem exists_sharedMessage {first second worker : Identity} (ha : first.Renderable)
    (hb : second.Renderable) (hw : worker.Renderable) :
    ∃ message, sharedMessage first second worker = .ok message := by
  obtain ⟨a, ha⟩ := ha
  obtain ⟨b, hb⟩ := hb
  obtain ⟨w, hw⟩ := hw
  unfold sharedMessage
  rw [ha, hb, hw]
  exact ⟨_, rfl⟩

theorem sharedFailure_eq {first second worker : Identity} {message : String}
    (said : sharedMessage first second worker = .ok message) :
    sharedFailure first second worker =
      .build (.overlap [.identity first, .identity second] message) := by
  unfold sharedFailure
  rw [said]

/-! ## The checks of a resolution -/

/-- The check that no service and no worker is a member. -/
def checkMembers (members : List Identity) (workers : Table Identity Identity) :
    Except Failure Unit :=
  match overlap members workers with
  | [] => .ok ()
  | names => .error (overlapFailure names)

/-- The check that no two services have one worker. -/
def checkShared (workers : Table Identity Identity) : Except Failure Unit :=
  match sharedWorker? [] workers.entries with
  | none => .ok ()
  | some (first, second, worker) => .error (sharedFailure first second worker)

theorem outcome_resolve (naming : WorkerNaming) (members : List Identity)
    (ds : List NotaryDeclaration) : (resolve naming members ds).outcome = (do
      let workers ← nameWorkers naming .empty ds
      checkMembers members workers
      checkShared workers
      return workers) := by
  cases ds with
  | nil => rfl
  | cons d ds =>
    unfold resolve checkMembers checkShared
    simp only [Traced.outcome_bind, Traced.outcome_ofExcept]
    congr 1
    funext workers
    cases overlap members workers with
    | cons i is => rfl
    | nil =>
      cases sharedWorker? [] workers.entries with
      | none => rfl
      | some found => rfl

/-- With all workers named two checks are left. -/
theorem outcome_of_named {naming : WorkerNaming} {members : List Identity}
    {ds : List NotaryDeclaration} {workers : Table Identity Identity}
    (made : nameWorkers naming .empty ds = .ok workers) :
    (resolve naming members ds).outcome = (do
      checkMembers members workers
      checkShared workers
      return workers) := by
  rw [outcome_resolve, made]
  rfl

variable {naming : WorkerNaming} {services : List Identity} {workers : Table Identity Identity}

theorem checkMembers_eq_ok (h : Names naming services workers) {members : List Identity} :
    checkMembers members workers = .ok () ↔ crossing naming members services = [] := by
  unfold checkMembers
  rw [overlap_eq_crossing h]
  cases crossing naming members services <;> simp

theorem checkMembers_eq_error (h : Names naming services workers) {members : List Identity}
    {f : Failure} : checkMembers members workers = .error f ↔
      crossing naming members services ≠ [] ∧
        f = overlapFailure (crossing naming members services) := by
  unfold checkMembers
  rw [overlap_eq_crossing h]
  cases crossing naming members services <;> simp [eq_comm]

theorem checkShared_eq_ok : checkShared workers = .ok () ↔ workers.values.Nodup := by
  unfold checkShared
  rw [Table.values_eq_map, ← sharedWorker?_eq_none_iff]
  cases sharedWorker? [] workers.entries <;> simp

theorem nodup_map_ok {ε α : Type} {xs : List α} :
    (xs.map (Except.ok : α → Except ε α)).Nodup ↔ xs.Nodup := by
  unfold List.Nodup
  rw [List.pairwise_map]
  simp

/-- In terms of the services: the first whose worker a service before it has. -/
theorem Names.shared_iff (h : Names naming services workers) {first second worker : Identity} :
    sharedWorker? [] workers.entries = some (first, second, worker) ↔
      ∃ before after, services = before ++ second :: after ∧ (before.map naming).Nodup ∧
        first ∈ before ∧ naming first = .ok worker ∧ naming second = .ok worker := by
  have names : ∀ entries : List (Identity × Identity),
      (∀ entry ∈ entries, entry ∈ workers.entries) →
      (entries.map (·.1)).map naming = (entries.map (·.2)).map Except.ok := by
    intro entries inside
    rw [List.map_map, List.map_map]
    exact List.map_congr_left fun entry member => h.named _ (inside entry member)
  rw [sharedWorker?_eq_some_iff]
  constructor
  · rintro ⟨before, after, e, distinct, shared⟩
    have inside : ∀ entry ∈ before, entry ∈ workers.entries := fun entry member => by
      rw [e]
      exact List.mem_append_left _ member
    refine ⟨before.map (·.1), after.map (·.1), ?_, ?_, ?_, h.named _ (inside _ shared), ?_⟩
    · rw [← h.keys, Table.keys_eq_map, e, List.map_append, List.map_cons]
    · rw [names before inside]
      exact nodup_map_ok.mpr distinct
    · exact List.mem_map.mpr ⟨(first, worker), shared, rfl⟩
    · refine h.named (second, worker) ?_
      rw [e]
      exact List.mem_append_right before List.mem_cons_self
  · rintro ⟨before, after, e, distinct, member, hf, hs⟩
    rw [← h.keys, Table.keys_eq_map] at e
    obtain ⟨start, rest, entries, rfl, tail⟩ := List.map_eq_append_iff.mp e
    obtain ⟨⟨second', worker'⟩, finish, rfl, rfl, rfl⟩ := List.map_eq_cons_iff.mp tail
    have inside : ∀ entry ∈ start, entry ∈ workers.entries := fun entry member => by
      rw [entries]
      exact List.mem_append_left _ member
    have here := h.named (second', worker') (by
      rw [entries]
      exact List.mem_append_right start List.mem_cons_self)
    rw [hs] at here
    cases here
    refine ⟨start, finish, entries, ?_, ?_⟩
    · rw [names start inside] at distinct
      exact nodup_map_ok.mp distinct
    · obtain ⟨⟨first', worker'⟩, entry, rfl⟩ := List.mem_map.mp member
      have there := h.named _ (inside _ entry)
      rw [hf] at there
      cases there
      exact entry

end NotaryNetwork.Topology
