import NotaryNetwork.Json.Value
import NotaryNetwork.Record.Issue

/-!
# Fields of records

What a field may hold: a text of bounded length, a list, a record. A value may be given as a document
or, where the caller already has one, as a finished record.
-/

namespace NotaryNetwork

/-- A text of 1 to `most` characters. -/
abbrev Label (most : Nat) := { text : String // 1 ≤ text.length ∧ text.length ≤ most }

/-- A text that is not empty. -/
abbrev NonemptyText := { text : String // 1 ≤ text.length }

namespace Record

variable {α β : Type}

/-- A value that a caller gives for a record: finished, or as a document. -/
inductive Given (α : Type)
  | made (value : α)
  | raw (value : Json.Value)

/-- What a caller gives for a list: items one by one, or a document that is no list. -/
inductive GivenList (α : Type)
  | items (items : List α)
  | other (value : Json.Value)

/-- A text of characters. -/
def readText : Json.Value → Checked String
  | .string (.text s) => .ok s
  | .string (.torn _) => .fail .torn
  | _ => .fail .notString

/-- A text of 1 to `most` characters. -/
def checkLabel (most : Nat) (s : String) : Checked (Label most) :=
  if least : 1 ≤ s.length then
    if greatest : s.length ≤ most then .ok ⟨s, least, greatest⟩ else .fail (.tooLong most)
  else .fail .tooShort

def readLabel (most : Nat) (v : Json.Value) : Checked (Label most) := do
  checkLabel most (← readText v)

@[simp]
theorem readLabel_text (most : Nat) (s : String) : readLabel most (.text s) = checkLabel most s := rfl

def readNonempty (v : Json.Value) : Checked NonemptyText := do
  let s ← readText v
  if least : 1 ≤ s.length then .ok ⟨s, least⟩ else .fail .tooShort

@[simp]
theorem readNonempty_text (s : String) :
    readNonempty (.text s) = if least : 1 ≤ s.length then .ok ⟨s, least⟩ else .fail .tooShort := rfl

def required (name : String) (read : α → Checked β) (given : Option α) : Checked β :=
  match given with
  | none => Checked.within (.field name) (.fail .missing)
  | some v => Checked.within (.field name) (read v)

/-- A field that may be absent or null. -/
def optional (name : String) (read : Json.Value → Checked β) (given : Option Json.Value) :
    Checked (Option β) :=
  match given with
  | none | some .null => .ok none
  | some v => Checked.within (.field name) ((read v).map some)

def readItems (read : α → Checked β) (start : Nat) : List α → List (Checked β)
  | [] => []
  | v :: vs => Checked.within (.item start) (read v) :: readItems read (start + 1) vs

end Record

end NotaryNetwork
