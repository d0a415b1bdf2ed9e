import NotaryNetwork.Build.Journal

/-!
# Outcomes of computations

How a computation in steps comes out: it succeeds if every step does, and the first step that fails
is its failure. Stated for results, for computations with a journal, and for jobs, which also pass
on the state of a source.
-/

namespace NotaryNetwork

variable {ε ε' σ α β : Type}

/-! ## The first value with a property -/

/-- The first value of a list that has a property. -/
def IsFirst (P : α → Prop) (xs : List α) (x : α) : Prop :=
  ∃ before after, xs = before ++ x :: after ∧ (∀ y ∈ before, ¬ P y) ∧ P x

namespace IsFirst

variable {P Q : α → Prop} {xs : List α} {x y : α}

theorem holds (h : IsFirst P xs x) : P x := by
  obtain ⟨before, after, -, -, h⟩ := h
  exact h

theorem mem (h : IsFirst P xs x) : x ∈ xs := by
  obtain ⟨before, after, rfl, -⟩ := h
  exact List.mem_append_right before List.mem_cons_self

theorem not_nil : ¬ IsFirst P [] x := by
  rintro ⟨before, after, e, -⟩
  cases before <;> cases e

theorem cons_iff : IsFirst P (y :: xs) x ↔ (P y ∧ x = y) ∨ (¬ P y ∧ IsFirst P xs x) := by
  constructor
  · rintro ⟨before, after, e, earlier, h⟩
    cases before with
    | nil =>
      obtain ⟨rfl, -⟩ := List.cons.inj e
      exact .inl ⟨h, rfl⟩
    | cons z before =>
      obtain ⟨rfl, rfl⟩ := List.cons.inj e
      refine .inr ⟨earlier y List.mem_cons_self, before, after, rfl, ?_, h⟩
      exact fun w hw => earlier w (List.mem_cons_of_mem y hw)
  · rintro (⟨h, rfl⟩ | ⟨h, before, after, rfl, earlier, hx⟩)
    · exact ⟨[], xs, rfl, fun _ hz => absurd hz List.not_mem_nil, h⟩
    · refine ⟨y :: before, after, rfl, fun z hz => ?_, hx⟩
      rcases List.mem_cons.mp hz with rfl | hz
      · exact h
      · exact earlier z hz

/-- There is a first one if there is one at all. -/
theorem exists_iff : (∃ x, IsFirst P xs x) ↔ ∃ x ∈ xs, P x := by
  induction xs with
  | nil => simp [not_nil]
  | cons y xs ih =>
    simp only [cons_iff, exists_or, exists_and_left, exists_eq, and_true, ih, List.mem_cons,
      exists_eq_or_imp]
    by_cases h : P y <;> simp [h]

theorem iff_find? [DecidablePred P] : IsFirst P xs x ↔ xs.find? (P ·) = some x := by
  simp only [IsFirst, List.find?_eq_some_iff_append, Bool.not_eq_true', decide_eq_true_eq,
    decide_eq_false_iff_not]
  constructor
  · rintro ⟨before, after, whole, earlier, holds⟩
    exact ⟨holds, before, after, whole, earlier⟩
  · rintro ⟨holds, before, after, whole, earlier⟩
    exact ⟨before, after, whole, earlier, holds⟩

theorem append (h : IsFirst P xs x) (ys : List α) : IsFirst P (xs ++ ys) x := by
  obtain ⟨before, after, rfl, earlier, holds⟩ := h
  exact ⟨before, after ++ ys, by simp, earlier, holds⟩

theorem concat_iff [DecidablePred P] :
    IsFirst P (xs ++ [y]) x ↔ IsFirst P xs x ∨ ((∀ z ∈ xs, ¬ P z) ∧ P y ∧ x = y) := by
  simp only [iff_find?, List.find?_append, Option.or_eq_some_iff, List.find?_eq_none,
    decide_eq_true_eq, List.find?_singleton]
  by_cases holds : P y <;> simp [holds, eq_comm]

/-- Fewer values have a property, but the first one of the others has it too. -/
theorem congr_of_first (fewer : ∀ y ∈ xs, Q y → P y) (first : ∀ y, IsFirst P xs y → Q y) :
    IsFirst P xs x ↔ IsFirst Q xs x := by
  induction xs with
  | nil => simp [not_nil]
  | cons y xs ih =>
    rw [cons_iff, cons_iff]
    by_cases here : P y
    · have also := first y (cons_iff.mpr (.inl ⟨here, rfl⟩))
      simp only [here, also, true_and, not_true_eq_false, false_and]
    · have neither := mt (fewer y List.mem_cons_self) here
      simp only [here, neither, false_and, not_false_eq_true, true_and, false_or]
      exact ih (fun z hz => fewer z (List.mem_cons_of_mem y hz)) fun z later =>
        first z (cons_iff.mpr (.inr ⟨here, later⟩))

theorem congr (h : ∀ y ∈ xs, (P y ↔ Q y)) : IsFirst P xs x ↔ IsFirst Q xs x := by
  induction xs with
  | nil => simp [not_nil]
  | cons y xs ih =>
    rw [cons_iff, cons_iff, h y List.mem_cons_self, ih fun z hz => h z (List.mem_cons_of_mem y hz)]

end IsFirst

/-! ## Results -/

theorem bind_eq_ok {x : Except ε α} {f : α → Except ε β} {b : β} :
    (x >>= f) = .ok b ↔ ∃ a, x = .ok a ∧ f a = .ok b := by
  cases x <;> simp [bind, Except.bind]

theorem bind_eq_error {x : Except ε α} {f : α → Except ε β} {e : ε} :
    (x >>= f) = .error e ↔ x = .error e ∨ ∃ a, x = .ok a ∧ f a = .error e := by
  cases x <;> simp [bind, Except.bind]

@[simp]
theorem mapError_ok (a : α) (f : ε → ε') : (Except.ok a).mapError f = .ok a := rfl

@[simp]
theorem mapError_error (e : ε) (f : ε → ε') :
    (Except.error e : Except ε α).mapError f = .error (f e) := rfl

theorem mapError_eq_ok {x : Except ε α} {f : ε → ε'} {a : α} :
    x.mapError f = .ok a ↔ x = .ok a := by
  cases x <;> simp

theorem mapError_eq_error {x : Except ε α} {f : ε → ε'} {e : ε'} :
    x.mapError f = .error e ↔ ∃ e', x = .error e' ∧ f e' = e := by
  cases x <;> simp

theorem map_eq_ok {x : Except ε α} {f : α → β} {b : β} :
    x.map f = .ok b ↔ ∃ a, x = .ok a ∧ f a = b := by
  cases x <;> simp [Except.map]

theorem bind_pure_eq_map (x : Except ε α) (f : α → β) :
    (x >>= fun a => pure (f a)) = x.map f := by
  cases x <;> rfl

theorem toOption_eq_some_iff {x : Except ε α} {a : α} : x.toOption = some a ↔ x = .ok a := by
  cases x <;> simp [Except.toOption]

theorem mapM_ok {f : α → Except ε β} {g : α → β} {xs : List α} (h : ∀ x ∈ xs, f x = .ok (g x)) :
    xs.mapM f = .ok (xs.map g) := by
  induction xs with
  | nil => rfl
  | cons x xs ih =>
    rw [List.mapM_cons, h x List.mem_cons_self, ih fun y hy => h y (List.mem_cons_of_mem x hy)]
    rfl

theorem mapM_map_ok {γ : Type} {f : β → Except ε γ} {g : α → β} {h : α → γ} {xs : List α}
    (each : ∀ x ∈ xs, f (g x) = .ok (h x)) : (xs.map g).mapM f = .ok (xs.map h) := by
  induction xs with
  | nil => rfl
  | cons x xs ih =>
    rw [List.map_cons, List.mapM_cons, each x List.mem_cons_self,
      ih fun y hy => each y (List.mem_cons_of_mem x hy)]
    rfl

theorem mapM_map_self {f : β → Except ε α} {g : α → β} {xs : List α}
    (each : ∀ x ∈ xs, f (g x) = .ok x) : (xs.map g).mapM f = .ok xs :=
  (mapM_map_ok each).trans (congrArg Except.ok (List.map_id xs))

theorem ok_of_mapM {f : α → Except ε β} {xs : List α} {ys : List β} (h : xs.mapM f = .ok ys) :
    ∀ x ∈ xs, ∃ y, f x = .ok y := by
  induction xs generalizing ys with
  | nil => simp
  | cons x xs ih =>
    rw [List.mapM_cons] at h
    obtain ⟨y, hy, h⟩ := bind_eq_ok.mp h
    obtain ⟨zs, hzs, -⟩ := bind_eq_ok.mp h
    intro z hz
    rcases List.mem_cons.mp hz with rfl | hz
    · exact ⟨y, hy⟩
    · exact ih hzs z hz

theorem exists_mapM_ok {f : α → Except ε β} {xs : List α} (h : ∀ x ∈ xs, ∃ y, f x = .ok y) :
    ∃ ys, xs.mapM f = .ok ys := by
  induction xs with
  | nil => exact ⟨[], rfl⟩
  | cons x xs ih =>
    obtain ⟨y, hy⟩ := h x List.mem_cons_self
    obtain ⟨ys, hys⟩ := ih fun z hz => h z (List.mem_cons_of_mem x hz)
    refine ⟨y :: ys, ?_⟩
    rw [List.mapM_cons, hy, hys]
    rfl

theorem forM_eq_ok {f : α → Except ε Unit} {xs : List α} :
    xs.forM f = .ok () ↔ ∀ x ∈ xs, f x = .ok () := by
  induction xs with
  | nil => simp [List.forM, pure, Except.pure]
  | cons x xs ih =>
    rw [show (x :: xs).forM f = (f x >>= fun _ => xs.forM f) from rfl, bind_eq_ok,
      List.forall_mem_cons, ih]
    constructor
    · rintro ⟨_, first, rest⟩
      exact ⟨first, rest⟩
    · rintro ⟨first, rest⟩
      exact ⟨(), first, rest⟩

/-- A traversal fails as its first step that fails. -/
theorem forM_eq_error {f : α → Except ε Unit} {xs : List α} {e : ε} :
    xs.forM f = .error e ↔ ∃ x, IsFirst (fun y => f y ≠ .ok ()) xs x ∧ f x = .error e := by
  induction xs with
  | nil => simp [List.forM, pure, Except.pure, IsFirst.not_nil]
  | cons x xs ih =>
    rw [show (x :: xs).forM f = (f x >>= fun _ => xs.forM f) from rfl]
    simp only [IsFirst.cons_iff]
    cases h : f x with
    | error e' =>
      constructor
      · intro same
        cases same
        exact ⟨x, .inl ⟨by simp, rfl⟩, h⟩
      · rintro ⟨y, ⟨-, rfl⟩ | ⟨ok, -⟩, he⟩
        · exact h.symm.trans he
        · exact absurd (by simp) ok
    | ok u =>
      have rest : ((Except.ok u : Except ε Unit) >>= fun _ => xs.forM f) = xs.forM f := rfl
      rw [rest, ih]
      simp

/-! ## Computations with a journal -/

namespace Traced

@[simp]
theorem outcome_pure (a : α) : (pure a : Traced ε α).outcome = .ok a := rfl

@[simp]
theorem outcome_ofExcept (x : Except ε α) : (ofExcept x).outcome = x := rfl

@[simp]
theorem outcome_log (event : Event) : (log event : Traced ε Unit).outcome = .ok () := rfl

theorem outcome_bind (x : Traced ε α) (f : α → Traced ε β) :
    (x >>= f).outcome = (x.outcome >>= fun a => (f a).outcome) := by
  show (bind x f).outcome = _
  unfold bind
  cases x.outcome <;> rfl

end Traced

/-! ## Jobs -/

namespace Job

theorem bind_of_error {x : Job σ ε α} {f : α → Job σ ε β} {s : σ} {e : ε}
    (h : (x s).1.outcome = .error e) :
    (x >>= f) s = (⟨(x s).1.journal, .error e⟩, (x s).2) := by
  show bind x f s = _
  unfold bind
  rcases run : x s with ⟨⟨journal, outcome⟩, s'⟩
  rw [run] at h
  cases h
  rfl

theorem outcome_bind_of_error {x : Job σ ε α} {f : α → Job σ ε β} {s : σ} {e : ε}
    (h : (x s).1.outcome = .error e) : ((x >>= f) s).1.outcome = .error e := by
  rw [bind_of_error h]

theorem outcome_bind_of_ok {x : Job σ ε α} {f : α → Job σ ε β} {s : σ} {a : α}
    (h : (x s).1.outcome = .ok a) :
    ((x >>= f) s).1.outcome = (f a (x s).2).1.outcome ∧ ((x >>= f) s).2 = (f a (x s).2).2 := by
  show (bind x f s).1.outcome = _ ∧ (bind x f s).2 = _
  unfold bind
  rcases run : x s with ⟨⟨journal, outcome⟩, s'⟩
  rw [run] at h
  cases h
  exact ⟨rfl, rfl⟩

/-- What holds of the rest of a computation holds of the whole. -/
theorem of_bind_ok {P : Except ε β → σ → Prop} {x : Job σ ε α} {f : α → Job σ ε β} {s : σ} {a : α}
    (h : (x s).1.outcome = .ok a) (rest : P (f a (x s).2).1.outcome (f a (x s).2).2) :
    P ((x >>= f) s).1.outcome ((x >>= f) s).2 := by
  obtain ⟨outcome, state⟩ := outcome_bind_of_ok h (f := f)
  rw [outcome, state]
  exact rest

theorem of_bind_error {P : Except ε β → σ → Prop} {x : Job σ ε α} {f : α → Job σ ε β} {s : σ}
    {e : ε} (h : (x s).1.outcome = .error e) (fails : P (.error e) (x s).2) :
    P ((x >>= f) s).1.outcome ((x >>= f) s).2 := by
  rw [bind_of_error h]
  exact fails

theorem bind_eq_ok {x : Job σ ε α} {f : α → Job σ ε β} {s : σ} {b : β}
    (h : ((x >>= f) s).1.outcome = .ok b) :
    ∃ a, (x s).1.outcome = .ok a ∧ (f a (x s).2).1.outcome = .ok b := by
  cases outcome : (x s).1.outcome with
  | error e =>
    rw [bind_of_error outcome] at h
    cases h
  | ok a => exact ⟨a, rfl, (outcome_bind_of_ok outcome).1 ▸ h⟩

theorem bind_eq_error {x : Job σ ε α} {f : α → Job σ ε β} {s : σ} {e : ε}
    (h : ((x >>= f) s).1.outcome = .error e) :
    (x s).1.outcome = .error e ∨
      ∃ a, (x s).1.outcome = .ok a ∧ (f a (x s).2).1.outcome = .error e := by
  cases outcome : (x s).1.outcome with
  | error e' =>
    rw [bind_of_error outcome] at h
    cases h
    exact .inl rfl
  | ok a => exact .inr ⟨a, rfl, (outcome_bind_of_ok outcome).1 ▸ h⟩

end Job

end NotaryNetwork
