import NotaryNetwork.Proofs.Outcome
import NotaryNetwork.Record.Fields

/-!
# Records that are read without issues

What is put together of checks succeeds only if every check does (`both_eq_ok`), and a list is read
just as its items are, one after the other (`all_readItems_iff`).
-/

namespace NotaryNetwork

variable {α β : Type}

theorem Checked.within_eq_ok {step : Step} {checked : Checked α} {a : α}
    (h : within step checked = .ok a) : checked = .ok a :=
  mapError_eq_ok.mp h

theorem Checked.both_eq_ok {first : Checked (α → β)} {second : Checked α} {b : β}
    (h : both first second = .ok b) : ∃ f a, first = .ok f ∧ second = .ok a ∧ b = f a := by
  cases first with
  | error issues => cases second <;> cases h
  | ok f =>
    cases second with
    | error issues => cases h
    | ok a =>
      cases h
      exact ⟨f, a, rfl, rfl, rfl⟩

theorem Record.required_ok {name : String} {read : α → Checked β} {v : α} {b : β}
    (h : read v = .ok b) : required name read (some v) = .ok b := by
  unfold required
  simp only [h]
  rfl

theorem Checked.both_cons_eq_ok {checked : Checked α} {rest : Checked (List α)} {ys : List α} :
    both (checked.map List.cons) rest = .ok ys ↔
      ∃ y rest', checked = .ok y ∧ rest = .ok rest' ∧ ys = y :: rest' := by
  constructor
  · intro h
    obtain ⟨make, tail, first, later, rfl⟩ := both_eq_ok h
    cases checked with
    | error issues => cases first
    | ok y =>
      cases first
      exact ⟨y, tail, rfl, later, rfl⟩
  · rintro ⟨y, tail, rfl, rfl, rfl⟩
    rfl

/-- **Items are read just as by reading one after the other.** -/
theorem Record.all_readItems_iff {read : α → Checked β} {xs : List α} {ys : List β} {start : Nat} :
    Checked.all (readItems read start xs) = .ok ys ↔ xs.mapM read = .ok ys := by
  induction xs generalizing ys start with
  | nil => rfl
  | cons x xs ih =>
    rw [readItems, Checked.all, Checked.both_cons_eq_ok, List.mapM_cons, bind_eq_ok]
    refine exists_congr fun y => ?_
    simp only [bind_eq_ok, ih, Checked.within, mapError_eq_ok]
    constructor
    · rintro ⟨rest, first, later, rfl⟩
      exact ⟨first, rest, later, rfl⟩
    · rintro ⟨first, rest, later, same⟩
      cases same
      exact ⟨rest, first, later, rfl⟩

end NotaryNetwork
