import Mathlib.Data.List.Forall2
import NotaryNetwork.Proofs.Build.Attempts

/-!
# Building and entropy

What two sources change of a network. If both always give as many bytes as they are asked for, one
network is built if and only if the other is, failures are the same, and the networks differ in
nothing but the bytes of keys (`build_agree`). The proof goes through the stages of building, each
of which keeps results in agreement.
-/

namespace NotaryNetwork

variable {σ τ α α' β β' ε : Type}

/-! ## Agreement -/

/-- Two values that are related, or one failure on both sides. -/
inductive Agree (R : α → α' → Prop) : Except ε α → Except ε α' → Prop
  | ok {a : α} {a' : α'} (related : R a a') : Agree R (.ok a) (.ok a')
  | error (e : ε) : Agree R (.error e) (.error e)

namespace Agree

variable {R : α → α' → Prop} {S : β → β' → Prop}

theorem bind {x : Except ε α} {y : Except ε α'} {f : α → Except ε β} {g : α' → Except ε β'}
    (first : Agree R x y) (next : ∀ a a', R a a' → Agree S (f a) (g a')) :
    Agree S (x >>= f) (y >>= g) := by
  cases first with
  | ok related => exact next _ _ related
  | error e => exact .error e

/-- A step without a source goes on in the same way on both sides. -/
theorem bind_same (x : Except ε α) {f : α → Except ε β} {g : α → Except ε β'}
    (next : ∀ a, Agree S (f a) (g a)) : Agree S (x >>= f) (x >>= g) := by
  cases x with
  | ok a => exact next a
  | error e => exact .error e

theorem self (x : Except ε α) : Agree (fun a a' => a = a' ∧ x = .ok a) x x := by
  cases x with
  | ok a => exact .ok ⟨rfl, rfl⟩
  | error e => exact .error e

end Agree

/-- Jobs whose outcomes agree whatever the states of their sources are. -/
def Job.Agree (R : α → α' → Prop) (x : Job σ ε α) (y : Job τ ε α') : Prop :=
  ∀ s t, NotaryNetwork.Agree R (x s).1.outcome (y t).1.outcome

namespace Job.Agree

variable {R : α → α' → Prop} {S : β → β' → Prop}

theorem bind {x : Job σ ε α} {y : Job τ ε α'} {f : α → Job σ ε β} {g : α' → Job τ ε β'}
    (first : Job.Agree R x y) (next : ∀ a a', R a a' → Job.Agree S (f a) (g a')) :
    Job.Agree S (x >>= f) (y >>= g) := by
  intro s t
  have start := first s t
  generalize outcome : (x s).1.outcome = o, outcome' : (y t).1.outcome = o' at start
  cases start with
  | error e =>
    rw [Job.outcome_bind_of_error outcome, Job.outcome_bind_of_error outcome']
    exact .error e
  | ok related =>
    rw [(Job.outcome_bind_of_ok outcome).1, (Job.outcome_bind_of_ok outcome').1]
    exact next _ _ related _ _

theorem ofTraced {x : Traced ε α} {y : Traced ε α'}
    (h : NotaryNetwork.Agree R x.outcome y.outcome) :
    Job.Agree R (Job.ofTraced x : Job σ ε α) (Job.ofTraced y : Job τ ε α') := fun _ _ => h

theorem pure {a : α} {a' : α'} (related : R a a') :
    Job.Agree R (Pure.pure a : Job σ ε α) (Pure.pure a' : Job τ ε α') := fun _ _ => .ok related

end Job.Agree

/-! ## Networks that are alike -/

/-- Key pairs of one scheme and of one kind. -/
structure KeyPair.Alike (a b : KeyPair) : Prop where
  schemeName : a.schemeName = b.schemeName
  kind : a.publicKey.kind = b.publicKey.kind

/-- The same identities in the same order, with key pairs that are alike. -/
def KeysAlike (t t' : Table Identity KeyPair) : Prop :=
  List.Forall₂ (fun e e' => e.1 = e'.1 ∧ e.2.Alike e'.2) t.entries t'.entries

/-- The same key, and the same value unless it is that of a public key. -/
structure GroupParameter.Alike (e e' : GroupParameter) : Prop where
  key : e.key = e'.key
  value : ¬ ".keys.0".toList <:+ e.key.val.toList → e.value = e'.value

/-- Networks that differ in nothing but the bytes of keys. -/
structure Network.Alike (n n' : Network) : Prop where
  members : KeysAlike n.members n'.members
  notaries : KeysAlike n.notaries n'.notaries
  workers : n.workers = n'.workers
  groupParameters : List.Forall₂ GroupParameter.Alike n.groupParameters n'.groupParameters
  schemeName : n.schemeName = n'.schemeName

namespace KeysAlike

variable {t t' : Table Identity KeyPair}

theorem empty : KeysAlike .empty .empty := .nil

theorem put_alike {entries entries' : List (Identity × KeyPair)}
    (h : List.Forall₂ (fun e e' => e.1 = e'.1 ∧ e.2.Alike e'.2) entries entries') (i : Identity)
    {pair pair' : KeyPair} (alike : pair.Alike pair') :
    List.Forall₂ (fun e e' => e.1 = e'.1 ∧ e.2.Alike e'.2) (put i pair entries)
      (put i pair' entries') := by
  induction h with
  | nil => exact .cons ⟨rfl, alike⟩ .nil
  | @cons e e' rest rest' same later ih =>
    obtain ⟨k, v⟩ := e
    obtain ⟨k', v'⟩ := e'
    obtain ⟨rfl, values⟩ := same
    unfold put
    by_cases here : k = i
    · rw [if_pos here, if_pos here]
      exact .cons ⟨rfl, alike⟩ later
    · rw [if_neg here, if_neg here]
      exact .cons ⟨rfl, values⟩ ih

theorem insert (h : KeysAlike t t') (i : Identity) {pair pair' : KeyPair}
    (alike : pair.Alike pair') : KeysAlike (t.insert i pair) (t'.insert i pair') :=
  put_alike h i alike

theorem lookup_alike {entries entries' : List (Identity × KeyPair)}
    (h : List.Forall₂ (fun e e' => e.1 = e'.1 ∧ e.2.Alike e'.2) entries entries') (i : Identity) :
    entries.lookup i = none ∧ entries'.lookup i = none ∨ ∃ pair pair',
      entries.lookup i = some pair ∧ entries'.lookup i = some pair' ∧ pair.Alike pair' := by
  induction h with
  | nil => exact .inl ⟨rfl, rfl⟩
  | @cons e e' rest rest' same later ih =>
    obtain ⟨k, v⟩ := e
    obtain ⟨k', v'⟩ := e'
    obtain ⟨rfl, values⟩ := same
    rw [List.lookup_cons, List.lookup_cons]
    cases i == k with
    | true => exact .inr ⟨v, v', rfl, rfl, values⟩
    | false => exact ih

/-- The worker of a service has a key on both sides or on neither. -/
theorem workerPair (h : KeysAlike t t') (workers : Table Identity Identity) (s : Identity) :
    Agree KeyPair.Alike (Parameters.workerPair workers t s)
      (Parameters.workerPair workers t' s) := by
  unfold Parameters.workerPair
  cases workers.get? s with
  | none => exact .error _
  | some worker =>
    unfold Table.get?
    rcases lookup_alike h worker with ⟨absent, absent'⟩ | ⟨pair, pair', found, found', alike⟩
    · simp only [absent, absent']
      exact .error _
    · simp only [found, found']
      exact .ok alike

end KeysAlike

/-! ## Keys -/

/-- A source that always gives as many bytes as it is asked for. -/
def Random.Exact (draw : Random.Draw σ) : Prop :=
  ∀ (n : Nat) s, ∃ bytes after, draw n s = (.ok bytes, after) ∧ bytes.length = n

namespace Provisioner

variable {p : Provisioner σ} {q : Provisioner τ} {scheme : KeyScheme}

theorem generateKey_agree (exact : Random.Exact p.draw) (exact' : Random.Exact q.draw)
    (other : ¬ scheme.MakesRsa) (s : σ) (t : τ) :
    Agree (fun key key' => key.publicKey.kind = key'.publicKey.kind)
      (p.generateKey scheme s).1 (q.generateKey scheme t).1 := by
  cases found : scheme.recipe? with
  | some recipe =>
    obtain ⟨-, makes, kind, kinds⟩ := KeyScheme.of_recipe? found
    obtain ⟨bytes, after, answer, enough⟩ := exact recipe.width s
    obtain ⟨bytes', after', answer', enough'⟩ := exact' recipe.width t
    obtain ⟨key, made⟩ := makes bytes enough
    obtain ⟨key', made'⟩ := makes bytes' enough'
    rw [generateKey_of_recipe found, generateKey_of_recipe found, drawKey, drawKey, answer, answer']
    simp only [made, made', mapError_ok]
    exact .ok ((kinds bytes key made).trans (kinds bytes' key' made').symm)
  | none =>
    obtain ⟨fault, fails⟩ := sourceless_eq_error other
    rw [generateKey_of_no_recipe found, generateKey_of_no_recipe found, fails, fails]
    exact .error _

theorem generatePair_agree (exact : Random.Exact p.draw) (exact' : Random.Exact q.draw)
    (other : ¬ scheme.MakesRsa) (s : σ) (t : τ) :
    Agree KeyPair.Alike (p.generatePair scheme s).1 (q.generatePair scheme t).1 := by
  have keys := generateKey_agree exact exact' other s t
  unfold generatePair
  rcases run : p.generateKey scheme s with ⟨outcome, s'⟩
  rcases run' : q.generateKey scheme t with ⟨outcome', t'⟩
  rw [run, run'] at keys
  cases keys with
  | ok kind => exact .ok ⟨rfl, kind⟩
  | error refusal => exact .error _

theorem generateInto_agree (exact : Random.Exact p.draw) (exact' : Random.Exact q.draw)
    (other : ¬ scheme.MakesRsa) (is : List Identity) {made made' : Table Identity KeyPair}
    (alike : KeysAlike made made') (s : σ) (t : τ) :
    Agree KeysAlike (p.generateInto scheme made is s).1 (q.generateInto scheme made' is t).1 := by
  induction is generalizing made made' s t with
  | nil => exact .ok alike
  | cons i is ih =>
    have first := generatePair_agree exact exact' other s t
    generalize pair : (p.generatePair scheme s).1 = o, pair' : (q.generatePair scheme t).1 = o'
      at first
    cases first with
    | ok same =>
      rw [generateInto_cons_of_ok pair, generateInto_cons_of_ok pair']
      exact ih (alike.insert i same) _ _
    | error f =>
      rw [generateInto_cons_of_error pair, generateInto_cons_of_error pair']
      exact .error f

/-- **Exact sources give keys to the same identities, or fail alike.** -/
theorem generatePairs_agree (exact : Random.Exact p.draw) (exact' : Random.Exact q.draw)
    (other : ¬ scheme.MakesRsa) (is : List Identity) :
    Job.Agree KeysAlike (p.generatePairs scheme is) (q.generatePairs scheme is) := by
  intro s t
  rw [(generatePairs_apply p scheme is s).1, (generatePairs_apply q scheme is t).1]
  exact generateInto_agree exact exact' other is .empty s t

end Provisioner

/-! ## Group parameters -/

theorem GroupParameter.Alike.refl (e : GroupParameter) : e.Alike e := ⟨rfl, fun _ => rfl⟩

namespace Parameters

variable {encodeKey : PublicKey → String} {workers : Table Identity Identity}
  {keys keys' : Table Identity KeyPair}

theorem suffix_publicKey (service : Nat) :
    ".keys.0".toList <:+ (ParameterKey.publicKey service).render.toList := by
  rw [ParameterKey.render, String.toList_append]
  exact List.suffix_append _ _

theorem serviceEntries_alike (service : Nat) (text key key' : String) (versions : List String) :
    List.Forall₂ GroupParameter.Alike (serviceEntries service text key versions)
      (serviceEntries service text key' versions) := by
  have same := fun es : List GroupParameter =>
    List.forall₂_same.mpr fun e (_ : e ∈ es) => GroupParameter.Alike.refl e
  refine .cons (.refl _) (.cons ⟨rfl, fun other => ?_⟩ (same _))
  exact absurd (suffix_publicKey service) other

theorem entriesFrom_agree (alike : KeysAlike keys keys') (index : Nat)
    (ds : List NotaryDeclaration) :
    Agree (List.Forall₂ GroupParameter.Alike) (entriesFrom encodeKey workers keys index ds)
      (entriesFrom encodeKey workers keys' index ds) := by
  induction ds generalizing index with
  | nil => exact .ok .nil
  | cons d ds ih =>
    unfold entriesFrom
    refine (alike.workerPair workers d.service).bind fun pair pair' _ => ?_
    refine .bind_same _ fun text => .bind_same _ fun versions => ?_
    refine (ih (index + 1)).bind fun rest rest' later => ?_
    exact .ok (List.rel_append (serviceEntries_alike index text _ _ _) later)

/-- Where no key is encoded by nothing, the entries always follow the contract. -/
theorem outcome_encode_of_filled (filled : ∀ key, 1 ≤ (encodeKey key).length)
    (ds : List NotaryDeclaration) :
    (encode encodeKey ds workers keys).outcome = entriesFrom encodeKey workers keys 0 ds := by
  cases entries : entriesFrom encodeKey workers keys 0 ds with
  | error f =>
    rw [outcome_encode, entries]
    rfl
  | ok es =>
    refine encode_eq_ok_iff.mpr ⟨entries, ?_⟩
    exact (filled_iff entries).mpr fun d _ pair _ => filled pair.publicKey

end Parameters

/-! ## Builders -/

namespace Builder

variable {registry : SchemeRegistry} {naming : Option WorkerNaming} {c : NetworkConfig}
  {p : Provisioner σ} {q : Provisioner τ} {encodeKey : PublicKey → String}

theorem provisionNotaries_agree (exact : Random.Exact p.draw) (exact' : Random.Exact q.draw)
    {plan : Plan} (other : ¬ plan.scheme.MakesRsa) :
    Job.Agree KeysAlike ((⟨registry, p, naming, encodeKey⟩ : Builder σ).provisionNotaries plan)
      ((⟨registry, q, naming, encodeKey⟩ : Builder τ).provisionNotaries plan) := by
  intro s t
  rw [(provisionNotaries_apply _ plan s).1, (provisionNotaries_apply _ plan t).1]
  exact Provisioner.generatePairs_agree exact exact' other _ s t

theorem encodeParameters_agree (filled : ∀ key, 1 ≤ (encodeKey key).length) (plan : Plan)
    {keys keys' : Table Identity KeyPair} (alike : KeysAlike keys keys') :
    Agree (List.Forall₂ GroupParameter.Alike)
      ((⟨registry, p, naming, encodeKey⟩ : Builder σ).encodeParameters c plan keys).outcome
      ((⟨registry, q, naming, encodeKey⟩ : Builder τ).encodeParameters c plan keys').outcome := by
  by_cases workerless : plan.workers.values = []
  · rw [encodeParameters_of_nil workerless, encodeParameters_of_nil workerless]
    exact .ok .nil
  · rw [encodeParameters_of_ne_nil workerless, encodeParameters_of_ne_nil workerless]
    dsimp only
    rw [Parameters.outcome_encode_of_filled filled, Parameters.outcome_encode_of_filled filled]
    exact Parameters.entriesFrom_agree alike 0 c.notaries

/-- **Builders on exact sources fail alike, or build networks that differ in nothing but the bytes
of keys.** -/
theorem build_agree (registry : SchemeRegistry) (naming : Option WorkerNaming)
    (c : NetworkConfig) {p : Provisioner σ} {q : Provisioner τ} (exact : Random.Exact p.draw)
    (exact' : Random.Exact q.draw)
    (other : ∀ scheme, registry.find? c.schemeName.val = some scheme → ¬ scheme.MakesRsa) :
    Job.Agree Network.Alike ((⟨registry, p, naming, Key.Pem.encode⟩ : Builder σ).build c)
      ((⟨registry, q, naming, Key.Pem.encode⟩ : Builder τ).build c) := by
  -- The plan does not depend on the source, so it is one and the same.
  have plans := Agree.self ((⟨registry, p, naming, Key.Pem.encode⟩ : Builder σ).plan c).outcome
  refine (Job.Agree.ofTraced (y := (⟨registry, q, naming, Key.Pem.encode⟩ : Builder τ).plan c)
    plans).bind ?_
  rintro plan _ ⟨rfl, made⟩
  have drawn : ¬ plan.scheme.MakesRsa := other plan.scheme (plan_eq_ok made).scheme
  refine (Provisioner.generatePairs_agree exact exact' drawn c.members).bind ?_
  intro members members' memberKeys
  refine (provisionNotaries_agree exact exact' drawn).bind fun notaries notaries' notaryKeys => ?_
  have encoded := Key.Pem.length_pos_encode
  refine (Job.Agree.ofTraced (encodeParameters_agree encoded plan notaryKeys)).bind ?_
  intro parameters parameters' entries
  refine Job.Agree.bind (R := fun _ _ => True) (fun _ _ => .ok trivial) fun _ _ _ => ?_
  exact .pure ⟨memberKeys, notaryKeys, rfl, entries, rfl⟩

/-- From an exact source a network is built where it is planned and all declarations are spelled. -/
theorem exists_build_of_exact {b : Builder σ} (exact : Random.Exact b.provisioner.draw)
    {plan : Plan} {recipe : Recipe} (made : (b.plan c).outcome = .ok plan)
    (found : plan.scheme.recipe? = some recipe) (filled : ∀ key, 1 ≤ (b.encodeKey key).length)
    (spelled : ∀ d ∈ c.notaries, d.Spelled) (s : σ) : ∃ n, (b.build c s).1.outcome = .ok n := by
  refine exists_build_of_keeps (fun _ => True) made found ?_ filled spelled trivial
  intro s _
  obtain ⟨bytes, after, answer, enough⟩ := exact recipe.width s
  exact ⟨bytes, after, answer, enough, trivial⟩

/-- A provisioner whose source gives nothing but ones. -/
def ones : Provisioner Unit :=
  ⟨fun length s => (.ok (List.replicate length.toNat 1), s), fun _ => 0⟩

/-- A provisioner on a seeded stream. -/
def streamed : Provisioner Random.SeededStream :=
  ⟨Random.SeededStream.draw, fun _ => 0⟩

/-- The network of two cities, from ones and from a stream. -/
theorem build_agree_twoCities :
    Random.Exact ones.draw ∧ Random.Exact streamed.draw ∧
    (∀ scheme, SchemeRegistry.platform.find? twoCities.schemeName.val = some scheme →
      ¬ scheme.MakesRsa) ∧
    ∃ n n', ((⟨.platform, ones, none, Key.Pem.encode⟩ : Builder _).build twoCities ()).1.outcome =
        .ok n ∧
      ((⟨.platform, streamed, none, Key.Pem.encode⟩ : Builder _).build twoCities
        (.start (.number 1))).1.outcome = .ok n' ∧
      n.Alike n' := by
  have exact : Random.Exact ones.draw := by
    intro n s
    refine ⟨List.replicate n 1, s, ?_, List.length_replicate⟩
    show (Except.ok (List.replicate (n : Int).toNat 1), s) = _
    rw [Int.toNat_natCast]
  have exact' : Random.Exact streamed.draw := fun n s => s.exists_draw n
  have other : ∀ scheme, SchemeRegistry.platform.find? twoCities.schemeName.val = some scheme →
      ¬ scheme.MakesRsa := fun scheme => not_makesRsa_twoCities
  have agree := build_agree .platform none twoCities exact exact' other () (.start (.number 1))
  obtain ⟨n, built⟩ := exists_build_of_exact
    (b := ⟨.platform, ones, none, Key.Pem.encode⟩) exact rfl rfl Key.Pem.length_pos_encode
    spelled_twoCities ()
  obtain ⟨n', built'⟩ := exists_build_of_exact
    (b := ⟨.platform, streamed, none, Key.Pem.encode⟩) exact' rfl rfl Key.Pem.length_pos_encode
    spelled_twoCities (.start (.number 1))
  rw [built, built'] at agree
  cases agree with
  | ok alike => exact ⟨exact, exact', other, n, n', built, built', alike⟩

end Builder

end NotaryNetwork
