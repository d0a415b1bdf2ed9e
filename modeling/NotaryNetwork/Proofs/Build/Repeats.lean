import NotaryNetwork.Proofs.Build.Consecutive
import NotaryNetwork.Proofs.Build.Generation
import NotaryNetwork.Proofs.Random.Requests

/-!
# Keys for repeated identities

An identity that occurs several times draws again each time: it keeps the place of its first
occurrence among the keys, and it has the key that its last occurrence has drawn (`get?_of_last`).
So on a seeded stream the keys of different identities come from stretches that are apart
(`generatePairs_repeated`).
-/

namespace NotaryNetwork

open NotaryNetwork.Random (SeededStream)

variable {α : Type}

/-! ## Last occurrences -/

/-- The place of the last occurrence of a value. -/
def IsLastPlace (xs : List α) (x : α) (place : Nat) : Prop :=
  ∃ before after, xs = before ++ x :: after ∧ before.length = place ∧ x ∉ after

namespace IsLastPlace

variable {xs : List α} {x y : α} {place : Nat}

theorem getElem?_eq (h : IsLastPlace xs x place) : xs[place]? = some x := by
  obtain ⟨before, after, rfl, rfl, -⟩ := h
  rw [List.getElem?_append_right (Nat.le_refl _), Nat.sub_self]
  rfl

/-- Different values have different last places. -/
theorem ne (hx : IsLastPlace xs x place) {place' : Nat} (hy : IsLastPlace xs y place')
    (other : x ≠ y) : place ≠ place' := by
  rintro rfl
  exact other (Option.some.inj (hx.getElem?_eq.symm.trans hy.getElem?_eq))

/-- What occurs has a last place. -/
theorem of_mem (h : x ∈ xs) : ∃ place, IsLastPlace xs x place := by
  induction xs with
  | nil => cases h
  | cons y ys ih =>
    by_cases later : x ∈ ys
    · obtain ⟨place, before, after, rfl, rfl, last⟩ := ih later
      exact ⟨_, y :: before, after, rfl, rfl, last⟩
    · obtain rfl : x = y := (List.mem_cons.mp h).resolve_right later
      exact ⟨0, [], ys, rfl, rfl, later⟩

end IsLastPlace

/-! ## Schemes that take bytes of the source -/

namespace KeyScheme

variable {scheme : KeyScheme}

/-- The keys of this scheme are made of bytes of the source: they are on one of the curves that keys
are made on, or they take 32 bytes as they are. -/
inductive Sourced (scheme : KeyScheme) : Prop
  | curve (curve : NamedCurve) (provisioned : curve ∈ NamedCurve.provisioned)
      (ec : scheme.algorithm = ecAlgorithm) (named : scheme.curve = some curve.name)
  | edwards (edwards : scheme.algorithm = edwardsAlgorithm)
  | agreement (agreement : scheme.algorithm = agreementAlgorithm)

theorem Sourced.exists_recipe (h : scheme.Sourced) : ∃ recipe, scheme.recipe? = some recipe := by
  cases h with
  | curve curve provisioned ec named => exact ⟨_, Provisioner.recipe?_of_curve ec named provisioned⟩
  | edwards edwards => exact ⟨_, Provisioner.recipe?_edwards edwards⟩
  | agreement agreement => exact ⟨_, Provisioner.recipe?_agreement agreement⟩

end KeyScheme

/-! ## Keys of answers -/

namespace Provisioner

variable {scheme : KeyScheme} {recipe : Recipe}

theorem pairsOf_append {is : List Identity} {answers : List Bytes}
    (count : is.length = answers.length) (js : List Identity) (others : List Bytes) :
    pairsOf scheme (is ++ js) (answers ++ others) =
      pairsOf scheme is answers ++ pairsOf scheme js others := by
  rw [pairsOf, List.zip_append count, List.filterMap_append]
  rfl

/-- If every answer makes a key, every occurrence has one. -/
theorem map_fst_pairsOf {is : List Identity} {answers : List Bytes}
    (makes : ∀ bytes ∈ answers, ∃ pair, scheme.pairOf? bytes = some pair)
    (count : answers.length = is.length) : (pairsOf scheme is answers).map (·.1) = is := by
  induction is generalizing answers with
  | nil => rfl
  | cons i is ih =>
    cases answers with
    | nil => cases count
    | cons bytes answers =>
      obtain ⟨⟨pair, made⟩, makes⟩ := List.forall_mem_cons.mp makes
      have rest := ih makes (Nat.succ.inj count)
      simp only [pairsOf, List.zip_cons_cons, List.filterMap_cons, made, Option.map_some,
        List.map_cons] at rest ⊢
      rw [rest]

/-- **An identity has the key that the answer at its last occurrence makes.** -/
theorem get?_of_last {is : List Identity} {answers : List Bytes} {i : Identity} {place : Nat}
    (last : IsLastPlace is i place) (count : answers.length = is.length) {bytes : Bytes}
    {pair : KeyPair} (answer : answers[place]? = some bytes)
    (made : scheme.pairOf? bytes = some pair) :
    (Table.ofList (pairsOf scheme is answers)).get? i = some pair := by
  obtain ⟨before, after, rfl, rfl, absent⟩ := last
  obtain ⟨inside, rfl⟩ := List.getElem?_eq_some_iff.mp answer
  -- The answers are cut where the identities are.
  have cut : answers = answers.take before.length ++
      answers[before.length] :: answers.drop (before.length + 1) := by
    rw [← List.drop_eq_getElem_cons inside, List.take_append_drop]
  have front : before.length = (answers.take before.length).length :=
    (List.length_take_of_le (Nat.le_of_lt inside)).symm
  have here : pairsOf scheme (i :: after)
      (answers[before.length] :: answers.drop (before.length + 1)) =
      (i, pair) :: pairsOf scheme after (answers.drop (before.length + 1)) := by
    simp only [pairsOf, List.zip_cons_cons, List.filterMap_cons, made, Option.map_some]
  rw [cut, pairsOf_append front, here]
  exact Table.get?_ofList_of_last (fun member => absent ((keys_pairsOf after _).subset member)) _ _

end Provisioner

/-! ## Keys from a stream -/

/-- The keys of identities, of which some may be repeated, come from a stream: the distinct ones are
in the order of their first occurrences, each has the key of the stretch of its last occurrence, and
no byte serves the keys of two of them. -/
structure Table.TakenAtLast (pairs : Table Identity KeyPair) (scheme : KeyScheme) (seed : Bytes)
    (start : Nat) (is : List Identity) : Prop where
  keys : pairs.keys = distinct is
  pair : ∀ i ∈ is, ∃ place pair, IsLastPlace is i place ∧ pairs.get? i = some pair ∧
    scheme.Makes (scheme.keyBytes seed start place) pair
  apart : ∀ i i' place place', i ≠ i' → IsLastPlace is i place → IsLastPlace is i' place' →
    ∀ byte, ¬ ((start + scheme.width * place ≤ byte ∧ byte < start + scheme.width * (place + 1)) ∧
      start + scheme.width * place' ≤ byte ∧ byte < start + scheme.width * (place' + 1))

namespace Provisioner

variable {scheme : KeyScheme} {recipe : Recipe}

theorem takenAtLast_of_recipe (found : scheme.recipe? = some recipe) (seed : Bytes) (start : Nat)
    (is : List Identity) :
    (Table.ofList (pairsOf scheme is (scheme.keyRun seed start 0 is.length))).TakenAtLast
      scheme seed start is := by
  have count := scheme.length_keyRun seed start 0 is.length
  constructor
  case keys =>
    rw [Table.keys_ofList, map_fst_pairsOf ?_ count]
    intro bytes member
    obtain ⟨key, -, rfl⟩ := List.mem_map.mp member
    obtain ⟨pair, made, -⟩ := KeyScheme.exists_pair_of_keyBytes found seed start key
    exact ⟨pair, made⟩
  case pair =>
    intro i member
    obtain ⟨place, last⟩ := IsLastPlace.of_mem member
    obtain ⟨inside, -⟩ := List.getElem?_eq_some_iff.mp last.getElem?_eq
    have answer := scheme.getElem?_keyRun seed start 0 inside
    rw [Nat.zero_add] at answer
    obtain ⟨pair, made, makes⟩ := KeyScheme.exists_pair_of_keyBytes found seed start place
    exact ⟨place, pair, last, get?_of_last last count answer made, makes⟩
  case apart =>
    rintro i i' place place' other last last' byte ⟨⟨lower, upper⟩, lower', upper'⟩
    exact last.ne last' other (KeyScheme.stretch_unique lower upper lower' upper')

/-- **Keys for identities with repetitions, from a stream that has come to any place: every
occurrence draws, the distinct identities are in the order of their first occurrences, and each has
the key of the stretch of its last one.** -/
theorem generatePairs_repeated (modulus : Nat → Nat) (sourced : scheme.Sourced) {seed : Random.Seed}
    {lengths : List Int} {stream : SeededStream}
    (reached : stream = (SeededStream.start seed).afterRequests lengths) (is : List Identity) :
    ∃ pairs after,
      ((choosing modulus).generatePairs scheme is (.seeded stream)).1.outcome = .ok pairs ∧
      ((choosing modulus).generatePairs scheme is (.seeded stream)).2 = .seeded after ∧
      after.bytesDrawn = stream.bytesDrawn + scheme.width * is.length ∧
      pairs.TakenAtLast scheme seed.toBytes stream.bytesDrawn is := by
  obtain ⟨recipe, found⟩ := sourced.exists_recipe
  rw [SeededStream.afterRequests_start] at reached
  have aligned : stream.Aligned := reached ▸ SeededStream.aligned_atPlace seed.toBytes _
  have own : stream.seed = seed.toBytes := congrArg (·.seed) reached
  have place : stream.bytesDrawn = stream.bytesDrawn + scheme.width * 0 := rfl
  obtain ⟨after, serves, -, -, drawn⟩ := serves_keys scheme 0 is.length aligned place
  rw [← (KeyScheme.of_recipe? found).width, own] at serves
  have count := scheme.length_keyRun seed.toBytes stream.bytesDrawn 0 is.length
  obtain ⟨outcome, state⟩ := generatePairs_of_serves (p := choosing modulus) found serves count
  refine ⟨_, after, outcome, state, ?_, takenAtLast_of_recipe found _ _ is⟩
  rw [drawn, Nat.zero_add]

/-- A tailor in Gdynia. -/
def tailor : Identity := ⟨none, none, ⟨"Krawiec", by decide⟩, ⟨"Gdynia", by decide⟩, none,
  ⟨"PL", by decide⟩⟩

/-- A cobbler next door. -/
def cobbler : Identity := { tailor with organization := ⟨"Szewc", by decide⟩ }

/-- The tailor comes twice, and the stream has been used before. -/
theorem generatePairs_repeated_tailor :
    KeyScheme.secp256k1.Sourced ∧
    ∃ pairs after,
      ((choosing fun _ => 0).generatePairs .secp256k1 [tailor, cobbler, tailor]
        (.seeded ((SeededStream.start (.number 7)).afterRequests [5, -1, 40]))).1.outcome =
          .ok pairs ∧
      ((choosing fun _ => 0).generatePairs .secp256k1 [tailor, cobbler, tailor]
        (.seeded ((SeededStream.start (.number 7)).afterRequests [5, -1, 40]))).2 =
          .seeded after ∧
      after.bytesDrawn = 165 ∧
      pairs.keys = [tailor, cobbler] ∧
      pairs.TakenAtLast .secp256k1 (Random.Seed.number 7).toBytes 45
        [tailor, cobbler, tailor] := by
  have sourced : KeyScheme.secp256k1.Sourced := .curve .secp256k1 (by decide) rfl rfl
  have reached : (SeededStream.start (.number 7)).afterRequests [5, -1, 40] =
    (SeededStream.start (.number 7)).afterRequests [5, -1, 40] := rfl
  have place : ((SeededStream.start (.number 7)).afterRequests [5, -1, 40]).bytesDrawn = 45 := by
    rw [SeededStream.afterRequests_start]
    rfl
  obtain ⟨pairs, after, outcome, state, drawn, taken⟩ :=
    generatePairs_repeated (fun _ => 0) sourced reached [tailor, cobbler, tailor]
  rw [place] at drawn taken
  have keys : distinct [tailor, cobbler, tailor] = [tailor, cobbler] := by decide
  exact ⟨sourced, pairs, after, outcome, state, drawn, taken.keys.trans keys, taken⟩

end Provisioner

end NotaryNetwork
