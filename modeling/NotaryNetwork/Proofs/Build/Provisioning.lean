import NotaryNetwork.Build.Builder
import NotaryNetwork.Proofs.Outcome
import NotaryNetwork.Proofs.Table

/-!
# Keys for identities

Distinct identities get their keys in their order, each of the scheme that was asked for
(`generatePairs_eq_ok`). Where keys cannot be made, the failure is one of the generation or one that
the source let through (`generatePairs_eq_error`). One identity more changes nothing of the keys
before (`entries_of_append`).
-/

namespace NotaryNetwork

/-- Keys of a scheme for identities, in their order. -/
structure Provisioned (scheme : KeyScheme) (identities : List Identity)
    (pairs : Table Identity KeyPair) : Prop where
  keys : pairs.keys = identities
  schemeName : ∀ pair ∈ pairs.values, pair.schemeName = scheme.codeName

namespace Provisioner

variable {σ : Type} {p : Provisioner σ} {scheme : KeyScheme} {s : σ}

theorem generatePair_eq_ok {pair : KeyPair} (h : (p.generatePair scheme s).1 = .ok pair) :
    pair.schemeName = scheme.codeName := by
  unfold generatePair at h
  split at h
  · cases h
    rfl
  · cases h

theorem generatePair_eq_error {f : Failure} (h : (p.generatePair scheme s).1 = .error f) :
    ∃ refusal : Refusal, f = refusal.toFailure scheme := by
  unfold generatePair at h
  split at h
  · cases h
  · rename_i refusal _ _
    cases h
    exact ⟨refusal, rfl⟩

theorem generateInto_cons_of_ok {made : Table Identity KeyPair} {i : Identity}
    {is : List Identity} {pair : KeyPair} (h : (p.generatePair scheme s).1 = .ok pair) :
    p.generateInto scheme made (i :: is) s =
      p.generateInto scheme (made.insert i pair) is (p.generatePair scheme s).2 := by
  rw [generateInto]
  split
  · rename_i pair' s' run
    rw [run] at h ⊢
    cases h
    rfl
  · rename_i failure s' run
    rw [run] at h
    cases h

theorem generateInto_cons_of_error {made : Table Identity KeyPair} {i : Identity}
    {is : List Identity} {f : Failure} (h : (p.generatePair scheme s).1 = .error f) :
    p.generateInto scheme made (i :: is) s = (.error f, (p.generatePair scheme s).2) := by
  rw [generateInto]
  split
  · rename_i pair s' run
    rw [run] at h
    cases h
  · rename_i failure s' run
    rw [run] at h ⊢
    cases h
    rfl

theorem generateInto_eq_ok {made pairs : Table Identity KeyPair} {is : List Identity}
    (apart : (made.keys ++ is).Nodup)
    (names : ∀ pair ∈ made.values, pair.schemeName = scheme.codeName)
    (h : (p.generateInto scheme made is s).1 = .ok pairs) :
    Provisioned scheme (made.keys ++ is) pairs := by
  -- No identity has a key in the table made so far, so every insertion is at its end.
  induction is generalizing made s with
  | nil =>
    cases h
    rw [List.append_nil]
    exact ⟨rfl, names⟩
  | cons i is ih =>
    cases first : (p.generatePair scheme s).1 with
    | error f =>
      rw [generateInto_cons_of_error first] at h
      cases h
    | ok pair =>
      rw [generateInto_cons_of_ok first] at h
      have new : i ∉ made.keys := fun member =>
        (List.nodup_append.mp apart).2.2 i member i List.mem_cons_self rfl
      rw [List.append_cons, ← Table.keys_insert new pair] at apart ⊢
      refine ih apart (fun pair' member => ?_) h
      rw [Table.values_eq_map, Table.entries_insert new, List.map_append] at member
      rcases List.mem_append.mp member with old | last
      · exact names pair' old
      · rw [List.mem_singleton.mp last]
        exact generatePair_eq_ok first

theorem generateInto_eq_error {made : Table Identity KeyPair} {is : List Identity} {f : Failure}
    (h : (p.generateInto scheme made is s).1 = .error f) :
    ∃ refusal : Refusal, f = refusal.toFailure scheme := by
  induction is generalizing made s with
  | nil => cases h
  | cons i is ih =>
    cases first : (p.generatePair scheme s).1 with
    | error f' =>
      rw [generateInto_cons_of_error first] at h
      cases h
      exact generatePair_eq_error first
    | ok pair =>
      rw [generateInto_cons_of_ok first] at h
      exact ih h

theorem generatePairs_apply (p : Provisioner σ) (scheme : KeyScheme) (is : List Identity) (s : σ) :
    (p.generatePairs scheme is s).1.outcome = (p.generateInto scheme .empty is s).1 ∧
      (p.generatePairs scheme is s).2 = (p.generateInto scheme .empty is s).2 := by
  unfold generatePairs
  cases run : (p.generateInto scheme .empty is s).1 with
  | error f =>
    have here : (Job.ofStep (p.generateInto scheme .empty is) s).1.outcome = .error f := run
    rw [Job.bind_of_error here]
    exact ⟨rfl, rfl⟩
  | ok pairs =>
    have here : (Job.ofStep (p.generateInto scheme .empty is) s).1.outcome = .ok pairs := run
    obtain ⟨outcome, state⟩ := Job.outcome_bind_of_ok here (f := fun pairs => do
      Job.ofTraced (.log (.keysGenerated pairs.size scheme.codeName))
      return pairs)
    exact ⟨outcome, state⟩

/-- **Distinct identities get their keys in their order, all of one scheme.** -/
theorem generatePairs_eq_ok {is : List Identity} (nodup : is.Nodup)
    {pairs : Table Identity KeyPair} (h : (p.generatePairs scheme is s).1.outcome = .ok pairs) :
    Provisioned scheme is pairs := by
  rw [(generatePairs_apply p scheme is s).1] at h
  have apart : ((.empty : Table Identity KeyPair).keys ++ is).Nodup := nodup
  exact generateInto_eq_ok apart (fun pair member => nomatch member) h

/-- More identities get their keys after the first ones. -/
theorem generateInto_append {made pairs : Table Identity KeyPair} {is : List Identity}
    (h : (p.generateInto scheme made is s).1 = .ok pairs) (js : List Identity) :
    p.generateInto scheme made (is ++ js) s =
      p.generateInto scheme pairs js (p.generateInto scheme made is s).2 := by
  induction is generalizing made s with
  | nil =>
    cases h
    rfl
  | cons i is ih =>
    cases first : (p.generatePair scheme s).1 with
    | error f =>
      rw [generateInto_cons_of_error first] at h
      cases h
    | ok pair =>
      rw [List.cons_append, generateInto_cons_of_ok first, generateInto_cons_of_ok first] at *
      exact ih h

/-- **One more identity gets one more key, and the others keep theirs.** -/
theorem entries_of_append {is : List Identity} {i : Identity} (nodup : (is ++ [i]).Nodup)
    {pairs pairs' : Table Identity KeyPair}
    (h : (p.generatePairs scheme is s).1.outcome = .ok pairs)
    (h' : (p.generatePairs scheme (is ++ [i]) s).1.outcome = .ok pairs') :
    ∃ pair, pairs'.entries = pairs.entries ++ [(i, pair)] := by
  have keys := (generatePairs_eq_ok (List.nodup_append.mp nodup).1 h).keys
  have new : i ∉ pairs.keys := by
    intro member
    rw [keys] at member
    exact (List.nodup_append.mp nodup).2.2 i member i List.mem_cons_self rfl
  rw [(generatePairs_apply p scheme is s).1] at h
  rw [(generatePairs_apply p scheme (is ++ [i]) s).1, generateInto_append h] at h'
  cases last : (p.generatePair scheme (p.generateInto scheme .empty is s).2).1 with
  | error f =>
    rw [generateInto_cons_of_error last] at h'
    cases h'
  | ok pair =>
    rw [generateInto_cons_of_ok last] at h'
    cases h'
    exact ⟨pair, Table.entries_insert new pair⟩

theorem generatePairs_eq_error {is : List Identity} {f : Failure}
    (h : (p.generatePairs scheme is s).1.outcome = .error f) :
    ∃ refusal : Refusal, f = refusal.toFailure scheme := by
  rw [(generatePairs_apply p scheme is s).1] at h
  exact generateInto_eq_error h

end Provisioner

end NotaryNetwork
