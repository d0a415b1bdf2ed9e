import NotaryNetwork.Proofs.Build.Provisioning

/-!
# Recipes of keys

A scheme whose keys are made of bytes of the source has a recipe (`KeyScheme.recipe?`): how many
bytes are asked for and the key that they make (`makes_of_recipe?`). Generating a key follows the
recipe (`generateKey_of_recipe`); without one the source is left alone (`generateKey_of_no_recipe`).
As many bytes as a recipe asks for always make a key, and all its keys are of one kind
(`of_recipe?`). Where a source answers request after request (`Serves`), the answers make the keys
of identities one after the other (`generatePairs_of_serves`); a source that can answer one request
and go on as it was answers any number of them (`Serves.exists_of_keeps`).
-/

namespace NotaryNetwork

variable {σ : Type}

/-! ## Curves -/

namespace NamedCurve

variable {curve : NamedCurve} {name : String}

theorem mem_provisioned_iff : curve ∈ provisioned ↔ curve = .secp256r1 ∨ curve = .secp256k1 := by
  simp [provisioned]

theorem provisioned_of_ofName? (h : ofName? name = some curve) :
    curve ∈ provisioned ∧ name = curve.name := by
  unfold ofName? at h
  have named : curve.name = name := by simpa using List.find?_some h
  exact ⟨List.mem_of_find?_eq_some h, named.symm⟩

theorem ofName?_of_provisioned (h : curve ∈ provisioned) : ofName? curve.name = some curve := by
  rcases mem_provisioned_iff.mp h with rfl | rfl <;> decide

end NamedCurve

theorem Provisioner.scalarBytes_of_provisioned {curve : NamedCurve}
    (h : curve ∈ NamedCurve.provisioned) : scalarBytes curve = 40 := by
  rcases NamedCurve.mem_provisioned_iff.mp h with rfl | rfl <;> rfl

/-! ## Schemes -/

/-- How many bytes make a key, and which one. -/
structure Recipe where
  width : Nat
  make : Bytes → Except KeyFault PrivateKey

namespace KeyScheme

variable {scheme : KeyScheme}

/-- The recipe of a scheme whose keys are made of bytes of the source. -/
def recipe? (scheme : KeyScheme) : Option Recipe :=
  if scheme.algorithm = ecAlgorithm then
    (scheme.curve.bind NamedCurve.ofName?).map fun curve =>
      ⟨Provisioner.scalarBytes curve, Provisioner.ecKey curve⟩
  else if scheme.algorithm = edwardsAlgorithm then
    some ⟨Provisioner.rawBytes, Provisioner.rawKey "Ed25519" .ed25519⟩
  else if scheme.algorithm = agreementAlgorithm then
    some ⟨Provisioner.rawBytes, Provisioner.rawKey "X25519" .x25519⟩
  else none

/-- The bytes that a key takes: the scalar of a curve takes eight more than the 32 of its order. -/
def width (scheme : KeyScheme) : Nat :=
  if scheme.algorithm = ecAlgorithm then 40 else 32

/-- The key pair of a scheme that bytes make. -/
def pairOf? (scheme : KeyScheme) (bytes : Bytes) : Option KeyPair :=
  match scheme.recipe? with
  | none => none
  | some recipe =>
    match recipe.make bytes with
    | .ok key => some ⟨scheme.codeName, key⟩
    | .error _ => none

/-- Keys of this scheme come from the environment and not from the source. -/
structure MakesRsa (scheme : KeyScheme) : Prop where
  algorithm : scheme.algorithm = rsaAlgorithm
  size : ∃ size, scheme.keySize = some size ∧ Provisioner.leastRsaBits ≤ size

theorem scalarBytes_of_ofName? {name : String} {curve : NamedCurve}
    (h : NamedCurve.ofName? name = some curve) : Provisioner.scalarBytes curve = 40 :=
  Provisioner.scalarBytes_of_provisioned (NamedCurve.provisioned_of_ofName? h).1

theorem of_rawKey {name : String} {make : RawKey → PrivateKey} {bytes : Bytes} {key : PrivateKey}
    (h : Provisioner.rawKey name make bytes = .ok key) :
    ∃ whole : bytes.length = 32, key = make ⟨bytes, whole⟩ := by
  unfold Provisioner.rawKey at h
  split at h
  · cases h
    exact ⟨‹_›, rfl⟩
  · cases h

theorem kind_of_rawKey {make : RawKey → PrivateKey} {kind : String}
    (kinds : ∀ raw, (make raw).publicKey.kind = kind) (name : String) (bytes : Bytes)
    (key : PrivateKey) (h : Provisioner.rawKey name make bytes = .ok key) :
    key.publicKey.kind = kind := by
  obtain ⟨whole, rfl⟩ := of_rawKey h
  exact kinds _

/-- What holds of the recipe of a scheme. -/
structure Sound (scheme : KeyScheme) (recipe : Recipe) : Prop where
  width : recipe.width = scheme.width
  makes : ∀ bytes : Bytes, bytes.length = recipe.width → ∃ key, recipe.make bytes = .ok key
  kind : ∃ kind, ∀ bytes key, recipe.make bytes = .ok key → key.publicKey.kind = kind

/-- **As many bytes as a recipe asks for make a key, and its keys are of one kind.** -/
theorem of_recipe? {recipe : Recipe} (h : scheme.recipe? = some recipe) :
    scheme.Sound recipe := by
  unfold recipe? at h
  split at h
  · rename_i ec
    obtain ⟨curve, named, rfl⟩ := Option.map_eq_some_iff.mp h
    obtain ⟨name, -, found⟩ := Option.bind_eq_some_iff.mp named
    refine ⟨?_, fun bytes _ => ⟨_, rfl⟩, "EC:" ++ curve.name, fun bytes key made => ?_⟩
    · rw [KeyScheme.width, if_pos ec]
      exact scalarBytes_of_ofName? found
    · cases made
      rfl
  rename_i other
  have raw : scheme.width = Provisioner.rawBytes := if_neg other
  have edwards : ∀ raw, (PrivateKey.ed25519 raw).publicKey.kind = "Ed25519" := fun _ => rfl
  have agreement : ∀ raw, (PrivateKey.x25519 raw).publicKey.kind = "X25519" := fun _ => rfl
  split at h
  · cases h
    exact ⟨raw.symm, fun bytes enough => ⟨_, dif_pos enough⟩, _, kind_of_rawKey edwards _⟩
  split at h
  · cases h
    exact ⟨raw.symm, fun bytes enough => ⟨_, dif_pos enough⟩, _, kind_of_rawKey agreement _⟩
  · cases h

theorem exists_pairOf? {recipe : Recipe} (h : scheme.recipe? = some recipe) {bytes : Bytes}
    (enough : bytes.length = recipe.width) : ∃ pair, scheme.pairOf? bytes = some pair := by
  obtain ⟨key, made⟩ := (of_recipe? h).makes bytes enough
  refine ⟨⟨scheme.codeName, key⟩, ?_⟩
  unfold pairOf?
  simp only [h, made]

/-- The key pair that bytes make under a scheme. On a curve the scalar is their number, brought
between one and one less than the order; the two other kinds take 32 bytes as they are. -/
inductive Makes (scheme : KeyScheme) (bytes : Bytes) : KeyPair → Prop
  | curve (curve : NamedCurve) (provisioned : curve ∈ NamedCurve.provisioned)
      (ec : scheme.algorithm = ecAlgorithm) (named : scheme.curve = some curve.name) :
      Makes scheme bytes ⟨scheme.codeName,
        .ec curve (Bytes.ofBigEndian bytes % (curve.curve.order - 1) + 1)⟩
  | edwards (edwards : scheme.algorithm = edwardsAlgorithm) (whole : bytes.length = 32) :
      Makes scheme bytes ⟨scheme.codeName, .ed25519 ⟨bytes, whole⟩⟩
  | agreement (agreement : scheme.algorithm = agreementAlgorithm) (whole : bytes.length = 32) :
      Makes scheme bytes ⟨scheme.codeName, .x25519 ⟨bytes, whole⟩⟩

/-- A recipe makes keys as their algorithm has it. -/
theorem makes_of_recipe? {recipe : Recipe} (found : scheme.recipe? = some recipe) {bytes : Bytes}
    {key : PrivateKey} (made : recipe.make bytes = .ok key) :
    scheme.Makes bytes ⟨scheme.codeName, key⟩ := by
  unfold recipe? at found
  split at found
  · rename_i ec
    obtain ⟨curve, named, rfl⟩ := Option.map_eq_some_iff.mp found
    obtain ⟨name, given, known⟩ := Option.bind_eq_some_iff.mp named
    obtain ⟨provisioned, rfl⟩ := NamedCurve.provisioned_of_ofName? known
    cases made
    exact .curve curve provisioned ec given
  split at found
  · rename_i edwards
    cases found
    obtain ⟨whole, rfl⟩ := of_rawKey made
    exact .edwards edwards whole
  split at found
  · rename_i agreement
    cases found
    obtain ⟨whole, rfl⟩ := of_rawKey made
    exact .agreement agreement whole
  · cases found

theorem makes_of_pairOf? {bytes : Bytes} {pair : KeyPair} (h : scheme.pairOf? bytes = some pair) :
    scheme.Makes bytes pair := by
  unfold pairOf? at h
  split at h
  · cases h
  · rename_i recipe found
    split at h
    · cases h
      exact makes_of_recipe? found ‹_›
    · cases h

end KeyScheme

/-! ## Single keys -/

namespace Provisioner

variable {p : Provisioner σ} {scheme : KeyScheme} {recipe : Recipe}

theorem generateKey_of_recipe (h : scheme.recipe? = some recipe) (s : σ) :
    p.generateKey scheme s = p.drawKey recipe.width recipe.make s := by
  unfold KeyScheme.recipe? at h
  unfold generateKey
  split at h
  · rename_i ec
    rw [if_pos ec]
    obtain ⟨curve, named, rfl⟩ := Option.map_eq_some_iff.mp h
    rw [named]
  rename_i other
  rw [if_neg other]
  split at h
  · rename_i edwards
    cases h
    rw [if_pos edwards]
  rename_i other
  rw [if_neg other]
  split at h
  · rename_i agreement
    cases h
    rw [if_pos agreement]
  · cases h

/-- What comes of a scheme without a recipe. -/
def sourceless (p : Provisioner σ) (scheme : KeyScheme) : Except KeyFault PrivateKey :=
  if scheme.algorithm = KeyScheme.ecAlgorithm then .error (.unsupportedCurve scheme.curve)
  else if scheme.algorithm = KeyScheme.rsaAlgorithm then p.rsaKey scheme.keySize
  else .error (.noGenerator scheme.algorithm)

theorem generateKey_of_no_recipe (h : scheme.recipe? = none) (s : σ) :
    p.generateKey scheme s = ((p.sourceless scheme).mapError .key, s) := by
  unfold KeyScheme.recipe? at h
  unfold generateKey sourceless
  split at h
  · rename_i ec
    rw [if_pos ec, if_pos ec, Option.map_eq_none_iff.mp h]
    rfl
  rename_i other
  rw [if_neg other, if_neg other]
  split at h
  · cases h
  rename_i other
  rw [if_neg other]
  split at h
  · cases h
  rename_i other
  rw [if_neg other]
  split <;> rfl

/-- Without a recipe only RSA keys are made. -/
theorem sourceless_eq_error (h : ¬ scheme.MakesRsa) :
    ∃ fault, ∀ {σ : Type} (p : Provisioner σ), p.sourceless scheme = .error fault := by
  unfold sourceless
  split
  · exact ⟨_, fun _ => rfl⟩
  split
  · rename_i rsa
    unfold rsaKey
    cases size : scheme.keySize with
    | none => exact ⟨_, fun _ => rfl⟩
    | some bits =>
      have small : bits < leastRsaBits :=
        Int.not_le.mp fun large => h ⟨rsa, bits, size, large⟩
      exact ⟨_, fun _ => if_pos small⟩
  · exact ⟨_, fun _ => rfl⟩

theorem generatePair_of_recipe (h : scheme.recipe? = some recipe) {s t : σ} {bytes : Bytes}
    {pair : KeyPair} (answer : p.draw recipe.width s = (.ok bytes, t))
    (makes : scheme.pairOf? bytes = some pair) : p.generatePair scheme s = (.ok pair, t) := by
  unfold KeyScheme.pairOf? at makes
  unfold generatePair
  rw [generateKey_of_recipe h, drawKey, answer]
  simp only [h] at makes
  cases made : recipe.make bytes with
  | error fault => simp [made] at makes
  | ok key =>
    simp only [made, Option.some.injEq] at makes
    simp only [made, mapError_ok, makes]

theorem generatePair_of_sourceless (h : scheme.recipe? = none) {fault : KeyFault}
    (fails : p.sourceless scheme = .error fault) (s : σ) :
    p.generatePair scheme s = (.error ((Refusal.key fault).toFailure scheme), s) := by
  unfold generatePair
  rw [generateKey_of_no_recipe h, fails]
  rfl

end Provisioner

/-! ## Keys in turn -/

/-- A source answers requests for a number of bytes, one after the other, by just as many. -/
inductive Serves (draw : Random.Draw σ) (width : Nat) : σ → List Bytes → σ → Prop
  | none (s : σ) : Serves draw width s [] s
  | next {s t u : σ} {bytes : Bytes} {rest : List Bytes} (answer : draw width s = (.ok bytes, t))
      (enough : bytes.length = width) (later : Serves draw width t rest u) :
      Serves draw width s (bytes :: rest) u

/-- A source answers any number of requests if it can answer one and go on as it was. -/
theorem Serves.exists_of_keeps {draw : Random.Draw σ} {width : Nat} {Kept : σ → Prop}
    (step : ∀ s, Kept s →
      ∃ bytes t, draw width s = (.ok bytes, t) ∧ bytes.length = width ∧ Kept t)
    (count : Nat) {s : σ} (kept : Kept s) :
    ∃ answers t, Serves draw width s answers t ∧ answers.length = count ∧ Kept t := by
  induction count generalizing s with
  | zero => exact ⟨[], s, .none s, rfl, kept⟩
  | succ count ih =>
    obtain ⟨bytes, next, answer, enough, kept⟩ := step s kept
    obtain ⟨answers, t, later, length, kept⟩ := ih kept
    exact ⟨bytes :: answers, t, .next answer enough later, congrArg Nat.succ length, kept⟩

namespace Provisioner

variable {p : Provisioner σ} {scheme : KeyScheme} {recipe : Recipe}

/-- The key pairs that answers make, for as many identities. -/
def pairsOf (scheme : KeyScheme) (is : List Identity) (answers : List Bytes) :
    List (Identity × KeyPair) :=
  (is.zip answers).filterMap fun (i, bytes) => (scheme.pairOf? bytes).map (i, ·)

theorem generateInto_of_serves (h : scheme.recipe? = some recipe) {s u : σ} {answers : List Bytes}
    (serves : Serves p.draw recipe.width s answers u) {is : List Identity}
    (count : answers.length = is.length) (made : Table Identity KeyPair) :
    p.generateInto scheme made is s =
      (.ok ((pairsOf scheme is answers).foldl (fun t (i, pair) => t.insert i pair) made), u) := by
  induction serves generalizing is made with
  | none s =>
    rw [List.eq_nil_of_length_eq_zero count.symm]
    rfl
  | next answer enough later ih =>
    cases is with
    | nil => cases count
    | cons i is =>
      obtain ⟨pair, makes⟩ := KeyScheme.exists_pairOf? h enough
      have first := generatePair_of_recipe h answer makes
      rw [generateInto_cons_of_ok (congrArg Prod.fst first), first,
        ih (Nat.succ.inj count) (made.insert i pair)]
      simp only [pairsOf, List.zip_cons_cons, List.filterMap_cons, makes, Option.map_some,
        List.foldl_cons]

/-- **The answers of a source make the keys of identities, one after the other.** -/
theorem generatePairs_of_serves (h : scheme.recipe? = some recipe) {s u : σ} {answers : List Bytes}
    (serves : Serves p.draw recipe.width s answers u) {is : List Identity}
    (count : answers.length = is.length) :
    (p.generatePairs scheme is s).1.outcome = .ok (Table.ofList (pairsOf scheme is answers)) ∧
      (p.generatePairs scheme is s).2 = u := by
  obtain ⟨outcome, state⟩ := generatePairs_apply p scheme is s
  rw [generateInto_of_serves h serves count] at outcome state
  exact ⟨outcome, state⟩

theorem keys_pairsOf (is : List Identity) (answers : List Bytes) :
    ((pairsOf scheme is answers).map (·.1)).Sublist is := by
  induction is generalizing answers with
  | nil => exact List.Sublist.refl []
  | cons i is ih =>
    cases answers with
    | nil => exact List.nil_sublist _
    | cons bytes answers =>
      simp only [pairsOf, List.zip_cons_cons, List.filterMap_cons]
      cases scheme.pairOf? bytes with
      | none => exact (ih answers).cons i
      | some pair => exact (ih answers).cons_cons i

/-- Every identity has the key that the answer at its place makes. -/
theorem get?_pairsOf {is : List Identity} (nodup : is.Nodup) {answers : List Bytes} {m : Nat}
    {i : Identity} {bytes : Bytes} {pair : KeyPair} (place : is[m]? = some i)
    (answer : answers[m]? = some bytes) (makes : scheme.pairOf? bytes = some pair) :
    (Table.ofList (pairsOf scheme is answers)).get? i = some pair := by
  rw [Table.get?_eq_some_iff, Table.entries_ofList (nodup.sublist (keys_pairsOf is answers))]
  refine List.mem_filterMap.mpr ⟨(i, bytes), List.mem_iff_getElem?.mpr ⟨m, ?_⟩, ?_⟩
  · exact List.getElem?_zip_eq_some.mpr ⟨place, answer⟩
  · simp [makes]

/-- Without a recipe and without RSA keys nobody gets a key, and the source is left alone. -/
theorem generatePairs_of_sourceless (h : scheme.recipe? = none) (other : ¬ scheme.MakesRsa)
    (is : List Identity) (s : σ) :
    (p.generatePairs scheme is s).2 = s ∧
      (is = [] ∧ (p.generatePairs scheme is s).1.outcome = .ok .empty ∨
        ∃ f, (p.generatePairs scheme is s).1.outcome = .error f) := by
  obtain ⟨outcome, state⟩ := generatePairs_apply p scheme is s
  rw [outcome, state]
  cases is with
  | nil => exact ⟨rfl, .inl ⟨rfl, rfl⟩⟩
  | cons i is =>
    obtain ⟨fault, fails⟩ := sourceless_eq_error other
    have first := generatePair_of_sourceless h (fails p) s
    rw [generateInto_cons_of_error (congrArg Prod.fst first), first]
    exact ⟨rfl, .inr ⟨_, rfl⟩⟩

/-- Keys other than RSA keys depend on nothing but the source. -/
theorem generateKey_congr {q : Provisioner σ} (draws : p.draw = q.draw)
    (other : ¬ scheme.MakesRsa) (s : σ) : p.generateKey scheme s = q.generateKey scheme s := by
  cases found : scheme.recipe? with
  | some recipe =>
    rw [generateKey_of_recipe found, generateKey_of_recipe found, drawKey, drawKey, draws]
  | none =>
    obtain ⟨fault, fails⟩ := sourceless_eq_error other
    rw [generateKey_of_no_recipe found, generateKey_of_no_recipe found, fails p, fails q]

theorem generateInto_congr {q : Provisioner σ} (draws : p.draw = q.draw) (other : ¬ scheme.MakesRsa)
    (made : Table Identity KeyPair) (is : List Identity) (s : σ) :
    p.generateInto scheme made is s = q.generateInto scheme made is s := by
  have pairs (s : σ) : p.generatePair scheme s = q.generatePair scheme s := by
    rw [generatePair, generatePair, generateKey_congr draws other]
  induction is generalizing made s with
  | nil => rfl
  | cons i is ih =>
    rw [generateInto, generateInto, pairs s]
    simp only [ih]

theorem generatePairs_congr {q : Provisioner σ} (draws : p.draw = q.draw)
    (other : ¬ scheme.MakesRsa) (is : List Identity) :
    p.generatePairs scheme is = q.generatePairs scheme is := by
  have same : p.generateInto scheme .empty is = q.generateInto scheme .empty is :=
    funext (generateInto_congr draws other .empty is)
  rw [generatePairs, generatePairs, same]

end Provisioner

end NotaryNetwork
