import NotaryNetwork.Json.Binary64
import NotaryNetwork.Text.Printable

/-!
# Documents

A document value. Whole numbers written without a point or an exponent are kept apart from doubles,
and the members of an object stay in the order in which their keys came first. A text of a document
may be torn: an escape can spell one half of a surrogate pair without the other, and such a half
stands for no character.
-/

namespace NotaryNetwork.Json

/-! ## Texts -/

/-- A code point that is one half of a surrogate pair. -/
def isSurrogate (point : Nat) : Bool :=
  0xD800 ≤ point && point ≤ 0xDFFF

/-- The code points of a text in which a surrogate stands alone. -/
abbrev Torn := { points : List Nat // points.any isSurrogate = true }

/-- A text of a document: characters, or code points with a lone surrogate among them. -/
inductive Str
  | text (s : String)
  | torn (t : Torn)
deriving DecidableEq, Inhabited

namespace Str

instance : Coe String Str := ⟨text⟩

@[simp]
theorem text_beq (s t : String) : (text s == text t) = (s == t) := by
  rw [Bool.eq_iff_iff, beq_iff_eq, beq_iff_eq, text.injEq]

def points : Str → List Nat
  | text s => s.toList.map Char.toNat
  | torn t => t.val

/-- The text of code points. -/
def ofPoints (points : List Nat) : Str :=
  if h : points.any isSurrogate = true then torn ⟨points, h⟩
  else text (String.ofList (points.map Char.ofNat))

/-- The number of code points. -/
def length : Str → Nat
  | text s => s.length
  | torn t => t.val.length

theorem one_le_length_iff {s : Str} : 1 ≤ s.length ↔ s ≠ text "" := by
  rw [Nat.one_le_iff_ne_zero]
  cases s with
  | text s => rw [length, Ne, Ne, String.length_eq_zero_iff, text.injEq]
  | torn t =>
    refine iff_of_true (fun empty => ?_) nofun
    have lone := t.property
    rw [List.eq_nil_of_length_eq_zero empty] at lone
    cases lone

/-- Texts are ordered by their code points. -/
def before (s t : Str) : Bool :=
  s.points < t.points

/-- The text between quotation marks; a lone surrogate is spelled by its code. -/
def quoted : Str → String
  | text s => Text.quoted s
  | torn t =>
    let mark := Text.quotationMark (t.val.map Char.ofNat)
    let spell := fun point =>
      if isSurrogate point then Text.Ascii.escaped point
      else Text.quoteChar mark (Char.ofNat point)
    String.ofList (mark :: t.val.flatMap spell ++ [mark])

end Str

/-! ## Values -/

/-- A document value. -/
inductive Value
  | null
  | bool (value : Bool)
  | int (value : Int)
  | real (value : Binary64)
  | string (value : Str)
  | array (items : List Value)
  | object (members : List (Str × Value))
deriving Inhabited

namespace Value

/-- A text of characters. -/
abbrev text (s : String) : Value := string (.text s)

def get? (v : Value) (key : String) : Option Value :=
  match v with
  | object members => members.lookup (.text key)
  | _ => none

/-- A number as a double or exactly, if the value is one. Truth values are no numbers. -/
def isNumber : Value → Bool
  | int _ | real _ => true
  | _ => false

/-- The whole number that a value stands for, written either way. -/
def toInt? : Value → Option Int
  | int n => some n
  | real x => x.toInt?
  | _ => none

end Value

end NotaryNetwork.Json
