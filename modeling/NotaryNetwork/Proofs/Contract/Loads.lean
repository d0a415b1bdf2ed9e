import NotaryNetwork.Contract.Loader
import NotaryNetwork.Proofs.Outcome
import NotaryNetwork.Proofs.Table

/-!
# Loads in sequence

What a loader has loaded is what the files of the names that were asked for give: no more, no less,
and nothing of the loads that failed (`Holds`). A load keeps this (`Holds.load`), and a loader of
which it is true answers as a fresh one (`Holds.load_eq`). So a loader answers every name as a fresh
one does, whatever was asked before (`loads_eq_fresh`).
-/

namespace NotaryNetwork.Contract

open Json (Value)

/-- What the file of a name comes to: a document that passes the check, or an error. -/
inductive Gives (catalogue : Catalogue) (check : Value → Bool) (name : String) :
    Except LoadError Value → Prop
  | schema {text document} : catalogue name = .file text →
      Json.read (String.ofList (Text.unifyNewlines text.toList)) = .ok document →
      check document = true → Gives catalogue check name (.ok document)
  | notFound : catalogue name = .nothing → Gives catalogue check name (.error .notFound)
  | refused : catalogue name = .refused → Gives catalogue check name (.error .refused)
  | unreadable {text e} : catalogue name = .file text →
      Json.read (String.ofList (Text.unifyNewlines text.toList)) = .error e →
      Gives catalogue check name (.error (.unreadable e))
  | invalid {text document} : catalogue name = .file text →
      Json.read (String.ofList (Text.unifyNewlines text.toList)) = .ok document →
      check document = false → Gives catalogue check name (.error (.invalid name))

namespace Loader

/-- The outcomes of loads in turn. -/
def loads (loader : Loader) : List String → List (Except LoadError Value)
  | [] => []
  | name :: names => (loader.load name).1 :: (loader.load name).2.loads names

/-- The loader after loads in turn. -/
def after (loader : Loader) (names : List String) : Loader :=
  names.foldl (fun l name => (l.load name).2) loader

variable {catalogue : Catalogue} {check : Value → Bool} {asked : List String} {loader : Loader}
  {name : String}

/-! ## One load -/

theorem readFile_of_gives {outcome : Except LoadError Value}
    (h : Gives loader.catalogue loader.check name outcome) : loader.readFile name = outcome := by
  unfold readFile
  cases h with
  | schema found read checked =>
    rw [found]
    simp only [read, mapError_ok]
    exact if_pos checked
  | notFound found => rw [found]; rfl
  | refused found => rw [found]; rfl
  | unreadable found read =>
    rw [found]
    simp only [read, mapError_error]
    rfl
  | invalid found read checked =>
    rw [found]
    simp only [read, mapError_ok]
    exact if_neg (Bool.eq_false_iff.mp checked)

theorem exists_gives (catalogue : Catalogue) (check : Value → Bool) (name : String) :
    ∃ outcome, Gives catalogue check name outcome := by
  cases found : catalogue name with
  | nothing => exact ⟨_, .notFound found⟩
  | refused => exact ⟨_, .refused found⟩
  | file text =>
    cases read : Json.read (String.ofList (Text.unifyNewlines text.toList)) with
    | error e => exact ⟨_, .unreadable found read⟩
    | ok document =>
      cases checked : check document with
      | true => exact ⟨_, .schema found read checked⟩
      | false => exact ⟨_, .invalid found read checked⟩

theorem readFile_eq_iff {outcome : Except LoadError Value} :
    loader.readFile name = outcome ↔ Gives loader.catalogue loader.check name outcome := by
  refine ⟨?_, readFile_of_gives⟩
  rintro rfl
  obtain ⟨outcome, gives⟩ := exists_gives loader.catalogue loader.check name
  rw [readFile_of_gives gives]
  exact gives

theorem loaded_of_cached? {document : Value} (h : loader.cached? name = some document) :
    loader.loaded.get? name = some document := by
  unfold cached? at h
  split at h
  · cases h
  · cases h
  · next held => rw [held, h]

/-- A load finds the document, reads it and keeps it, or fails and keeps nothing. -/
theorem load_cases (loader : Loader) (name : String) :
    (∃ document, loader.loaded.get? name = some document ∧
      loader.load name = (.ok document, loader)) ∨
    (∃ document, loader.readFile name = .ok document ∧
      loader.load name =
        (.ok document, { loader with loaded := loader.loaded.insert name document })) ∨
    ∃ e, loader.readFile name = .error e ∧ loader.load name = (.error e, loader) := by
  unfold load
  cases found : loader.cached? name with
  | some document => exact .inl ⟨document, loaded_of_cached? found, rfl⟩
  | none =>
    cases read : loader.readFile name with
    | ok document => exact .inr (.inl ⟨document, rfl, rfl⟩)
    | error e => exact .inr (.inr ⟨e, rfl, rfl⟩)

/-- A load that fails leaves the loader as it was. -/
theorem load_unchanged {e : LoadError} (h : (loader.load name).1 = .error e) :
    (loader.load name).2 = loader := by
  rcases load_cases loader name with ⟨document, -, out⟩ | ⟨document, -, out⟩ | ⟨e, -, out⟩
  · rw [out]
  · rw [out] at h
    cases h
  · rw [out]

/-! ## What is loaded -/

/-- A loader has what the names that were asked for give, and nothing else. -/
structure Holds (catalogue : Catalogue) (check : Value → Bool) (asked : List String)
    (loader : Loader) : Prop where
  files : loader.catalogue = catalogue
  checks : loader.check = check
  loaded : ∀ name document, loader.loaded.get? name = some document ↔
    name ∈ asked ∧ Gives catalogue check name (.ok document)

theorem holds_fresh (catalogue : Catalogue) (check : Value → Bool) :
    Holds catalogue check [] (fresh catalogue check) where
  files := rfl
  checks := rfl
  loaded name document := by
    have empty : (fresh catalogue check).loaded.get? name = none := rfl
    simp [empty]

namespace Holds

theorem readFile_eq_iff (h : Holds catalogue check asked loader)
    {outcome : Except LoadError Value} :
    loader.readFile name = outcome ↔ Gives catalogue check name outcome := by
  rw [Loader.readFile_eq_iff, h.files, h.checks]

/-- A name that was asked for before adds nothing. -/
theorem again (h : Holds catalogue check asked loader) (known : name ∈ asked) :
    Holds catalogue check (asked ++ [name]) loader where
  files := h.files
  checks := h.checks
  loaded other content := by
    rw [h.loaded, List.mem_append, List.mem_singleton, or_iff_left_of_imp]
    intro same
    rw [same]
    exact known

/-- A document that is read is loaded under its name. -/
theorem kept (h : Holds catalogue check asked loader) {document : Value}
    (read : loader.readFile name = .ok document) :
    Holds catalogue check (asked ++ [name])
      { loader with loaded := loader.loaded.insert name document } where
  files := h.files
  checks := h.checks
  loaded other content := by
    rw [Table.get?_insert, List.mem_append, List.mem_singleton]
    by_cases same : other = name
    · rw [if_pos same, same, ← h.readFile_eq_iff, read]
      simp
    · rw [if_neg same, h.loaded, or_iff_left same]

/-- A name that gives no document adds nothing. -/
theorem failed (h : Holds catalogue check asked loader) {e : LoadError}
    (read : loader.readFile name = .error e) : Holds catalogue check (asked ++ [name]) loader where
  files := h.files
  checks := h.checks
  loaded other content := by
    rw [h.loaded, List.mem_append, List.mem_singleton]
    refine and_congr_left fun gives => ?_
    rw [or_iff_left]
    intro same
    rw [same, ← h.readFile_eq_iff, read] at gives
    cases gives

/-- **A load keeps what is loaded in line with what has been asked for.** -/
theorem load (h : Holds catalogue check asked loader) (name : String) :
    Holds catalogue check (asked ++ [name]) (loader.load name).2 := by
  rcases load_cases loader name with
    ⟨document, held, out⟩ | ⟨document, read, out⟩ | ⟨e, read, out⟩
  · rw [out]
    exact h.again ((h.loaded _ _).mp held).1
  · rw [out]
    exact h.kept read
  · rw [out]
    exact h.failed read

theorem after (h : Holds catalogue check asked loader) (names : List String) :
    Holds catalogue check (asked ++ names) (loader.after names) := by
  induction names generalizing asked loader with
  | nil =>
    rw [List.append_nil]
    exact h
  | cons name names ih =>
    have rest := ih (h.load name)
    rw [List.append_assoc] at rest
    exact rest

/-- **A load comes out as the file of the name says, whatever is loaded.** -/
theorem load_eq_iff (h : Holds catalogue check asked loader) {outcome : Except LoadError Value} :
    (loader.load name).1 = outcome ↔ Gives catalogue check name outcome := by
  have same : (loader.load name).1 = loader.readFile name := by
    rcases load_cases loader name with
      ⟨document, held, out⟩ | ⟨document, read, out⟩ | ⟨e, read, out⟩
    · rw [out, h.readFile_eq_iff.mpr ((h.loaded _ _).mp held).2]
    · rw [out, read]
    · rw [out, read]
  rw [same, h.readFile_eq_iff]

theorem load_eq (h : Holds catalogue check asked loader) (name : String) :
    (loader.load name).1 = ((fresh catalogue check).load name).1 :=
  h.load_eq_iff.mpr ((holds_fresh catalogue check).load_eq_iff.mp rfl)

theorem loads_eq (h : Holds catalogue check asked loader) (names : List String) :
    loader.loads names = names.map fun name => ((fresh catalogue check).load name).1 := by
  induction names generalizing asked loader with
  | nil => rfl
  | cons name names ih => rw [loads, h.load_eq, ih (h.load name), List.map_cons]

end Holds

/-! ## Loads in sequence -/

/-- **Every load comes out as the first load of a fresh loader.** It gives what the file of its name
comes to. A load that fails leaves the loader as it was, and after any loads the loader has the
documents of the names that were asked for and are schemas, each read from its own file, and no
others. -/
theorem loads_eq_fresh (catalogue : Catalogue) (check : Value → Bool) (names : List String) :
    (fresh catalogue check).loads names =
      names.map (fun name => ((fresh catalogue check).load name).1) ∧
    (∀ name outcome, ((fresh catalogue check).load name).1 = outcome ↔
      Gives catalogue check name outcome) ∧
    (∀ name e, (((fresh catalogue check).after names).load name).1 = .error e →
      (((fresh catalogue check).after names).load name).2 = (fresh catalogue check).after names) ∧
    ∀ name document, ((fresh catalogue check).after names).loaded.get? name = some document ↔
      name ∈ names ∧ Gives catalogue check name (.ok document) := by
  have start := holds_fresh catalogue check
  refine ⟨start.loads_eq names, fun name outcome => start.load_eq_iff,
    fun name e => load_unchanged, ?_⟩
  exact (start.after names).loaded

/-- Files with a truth value, with a text that is cut, and with an array, which is no schema. -/
def shelf : Catalogue := fun name =>
  if name = "gate" then .file "false"
  else if name = "torn" then .file "\x7b"
  else if name = "list" then .file "[]"
  else .nothing

theorem loads_eq_fresh_shelf :
    let names := ["gate", "torn", "list", "cellar", "gate"]
    let cut := .unreadable (.invalid .expectingName 1 1 2)
    (fresh shelf).loads names =
      [.ok (.bool false), .error cut, .error (.invalid "list"), .error .notFound,
        .ok (.bool false)] ∧
    (((fresh shelf).after names).load "torn").2 = (fresh shelf).after names ∧
    ((fresh shelf).after names).loaded.get? "gate" = some (.bool false) := by
  intro names cut
  obtain ⟨loads, gives, unchanged, loaded⟩ := loads_eq_fresh shelf isSchema names
  have gate : Gives shelf isSchema "gate" (.ok (.bool false)) := .schema rfl rfl rfl
  have torn : Gives shelf isSchema "torn" (.error cut) := .unreadable rfl rfl
  have list : Gives shelf isSchema "list" (.error (.invalid "list")) := .invalid rfl rfl rfl
  have cellar : Gives shelf isSchema "cellar" (.error .notFound) := .notFound rfl
  refine ⟨?_, unchanged "torn" cut rfl, (loaded _ _).mpr ⟨List.mem_cons_self, gate⟩⟩
  rw [loads]
  simp only [names, List.map_cons, List.map_nil, (gives _ _).mpr gate, (gives _ _).mpr torn,
    (gives _ _).mpr list, (gives _ _).mpr cellar]

end Loader

end NotaryNetwork.Contract
