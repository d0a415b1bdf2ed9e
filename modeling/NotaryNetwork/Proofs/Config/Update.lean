import NotaryNetwork.Config.Update
import NotaryNetwork.Proofs.Record

/-!
# Notaries that are declared

A change that declares a notary puts the declaration that was read into the list
(`withNotary_eq_ok`): behind all others if its service is new (`redeclare_of_not_mem`), and else in
the place of the one that its service had (`redeclare_of_mem`).
-/

namespace NotaryNetwork

open Record (Given)

theorem NotaryDeclaration.ofDraft_eq_ok {service : Given Identity} {versions : Json.Value}
    {d : NotaryDeclaration} (h : ofDraft ⟨some service, some versions⟩ = .ok d) :
    readIdentity service = .ok d.service ∧ readVersions versions = .ok d.versions := by
  obtain ⟨_, read, first, second, rfl⟩ := Checked.both_eq_ok h
  obtain ⟨_, made, start, third, rfl⟩ := Checked.both_eq_ok first
  cases start
  exact ⟨Checked.within_eq_ok third, Checked.within_eq_ok second⟩

namespace NetworkConfig

variable {c c' : NetworkConfig} {d : NotaryDeclaration}

/-- Reading a text first changes nothing of the identity that is read. -/
theorem readIdentity_of_parseText {given read : Given Identity} (h : parseText given = .ok read) :
    NotaryDeclaration.readIdentity read = NotaryDeclaration.readIdentity given := by
  cases given with
  | made i =>
    cases h
    rfl
  | raw value =>
    cases value with
    | string s =>
      cases s with
      | torn points =>
        cases h
        rfl
      | text s =>
        cases parsed : Identity.parse s with
        | error e =>
          rw [parseText, parsed] at h
          cases h
        | ok i =>
          rw [parseText, parsed] at h
          cases h
          rw [NotaryDeclaration.readIdentity, NotaryDeclaration.readIdentity, parsed]
          rfl
    | _ =>
      cases h
      rfl

/-- **A notary is declared as it is read.** -/
theorem withNotary_eq_ok {service : Given Identity} {versions : List Json.Value}
    (h : c.withNotary service versions = .ok c') :
    ∃ d : NotaryDeclaration, NotaryDeclaration.readIdentity service = .ok d.service ∧
      NotaryDeclaration.readVersions (.array versions) = .ok d.versions ∧
      c' = c.withDeclaration d := by
  unfold withNotary at h
  obtain ⟨read, parsed, h⟩ := bind_eq_ok.mp h
  obtain ⟨d, declared, h⟩ := bind_eq_ok.mp h
  cases h
  have made := mapError_eq_ok.mp (mapError_eq_ok.mp declared)
  obtain ⟨identity, numbers⟩ := NotaryDeclaration.ofDraft_eq_ok made
  rw [readIdentity_of_parseText (mapError_eq_ok.mp parsed)] at identity
  exact ⟨d, identity, numbers, rfl⟩

theorem redeclare_of_not_mem {ds : List NotaryDeclaration}
    (new : d.service ∉ ds.map (·.service)) : redeclare d ds = ds ++ [d] := by
  induction ds with
  | nil => rfl
  | cons e es ih =>
    obtain ⟨other, absent⟩ := not_or.mp (mt List.mem_cons.mpr new)
    rw [redeclare, if_neg (Ne.symm other), ih absent, List.cons_append]

theorem redeclare_of_mem {before after : List NotaryDeclaration} {old : NotaryDeclaration}
    (same : old.service = d.service) (first : d.service ∉ before.map (·.service)) :
    redeclare d (before ++ old :: after) = before ++ d :: after := by
  induction before with
  | nil => exact if_pos same
  | cons e es ih =>
    obtain ⟨other, absent⟩ := not_or.mp (mt List.mem_cons.mpr first)
    rw [List.cons_append, redeclare, if_neg (Ne.symm other), ih absent, List.cons_append]

/-- The declarations afterwards are the new one and the old ones of other services. -/
theorem mem_redeclare {ds : List NotaryDeclaration} (nodup : (ds.map (·.service)).Nodup)
    {e : NotaryDeclaration} (h : e ∈ redeclare d ds) :
    e = d ∨ e ∈ ds ∧ d.service ≠ e.service := by
  induction ds with
  | nil => exact .inl (List.mem_singleton.mp h)
  | cons first rest ih =>
    obtain ⟨apart, nodup⟩ := List.nodup_cons.mp nodup
    rw [redeclare] at h
    split at h
    · rename_i same
      rcases List.mem_cons.mp h with rfl | later
      · exact .inl rfl
      · refine .inr ⟨List.mem_cons_of_mem _ later, fun equal => apart ?_⟩
        exact List.mem_map.mpr ⟨e, later, equal.symm.trans same.symm⟩
    · rename_i other
      rcases List.mem_cons.mp h with rfl | later
      · exact .inr ⟨List.mem_cons_self, Ne.symm other⟩
      · exact (ih nodup later).imp_right (And.imp_left (List.mem_cons_of_mem _))

/-- The declaration in a place is replaced, and those before and after it stay. -/
theorem redeclare_at {ds : List NotaryDeclaration} (nodup : (ds.map (·.service)).Nodup) {i : Nat}
    {old : NotaryDeclaration} (place : ds[i]? = some old) (same : old.service = d.service) :
    ds = ds.take i ++ old :: ds.drop (i + 1) ∧
      redeclare d ds = ds.take i ++ d :: ds.drop (i + 1) ∧ (ds.take i).length = i := by
  obtain ⟨inside, here⟩ := List.getElem?_eq_some_iff.mp place
  have split := List.take_append_drop i ds
  rw [List.drop_eq_getElem_cons inside, here] at split
  have first : d.service ∉ (ds.take i).map (·.service) := by
    intro member
    rw [← split, List.map_append] at nodup
    exact (List.nodup_append.mp nodup).2.2 _ member _ List.mem_cons_self same.symm
  have replaced := @redeclare_of_mem d _ (ds.drop (i + 1)) old same first
  rw [split] at replaced
  exact ⟨split.symm, replaced, List.length_take_of_le (Nat.le_of_lt inside)⟩

end NetworkConfig

end NotaryNetwork
