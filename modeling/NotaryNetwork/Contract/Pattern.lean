import NotaryNetwork.Json.Value
import NotaryNetwork.Text.Search

/-!
# Patterns

Regular expressions over plain text, ranges of characters, sequences, repeated ranges and choices,
with what they match and how they are spelled. A pattern of a contract is anchored at both ends; the
anchor at the end also holds before one final line feed.
-/

namespace NotaryNetwork.Contract

/-- A regular expression. -/
inductive Pattern
  | text (cs : List Char)
  | range (first last : Char)
  | many (first last : Char)
  | seq (first second : Pattern)
  | either (left right : Pattern)

namespace Pattern

def inRange (first last c : Char) : Bool := first ≤ c && c ≤ last

/-- The rests after any number of characters of a range. -/
def repeats (first last : Char) : List Char → List (List Char)
  | [] => [[]]
  | c :: cs => (c :: cs) :: if inRange first last c then repeats first last cs else []

/-- The rests of the text after all the ways to match its start. -/
def rests : Pattern → List Char → List (List Char)
  | text ts, cs => (Text.after? ts cs).toList
  | range first last, c :: cs => if inRange first last c then [cs] else []
  | range _ _, [] => []
  | many first last, cs => repeats first last cs
  | seq p q, cs => (p.rests cs).flatMap q.rests
  | either p q, cs => p.rests cs ++ q.rests cs

/-- Whether a text matches from its start to its end, or to a final line feed. -/
def accepts (p : Pattern) (s : String) : Bool :=
  (p.rests s.toList).any fun rest => rest = [] || rest = ['\n']

/-- Whether a text of a document matches. The patterns of the contracts are made of ASCII characters
alone, so they match no text with a lone surrogate. -/
def acceptsStr (p : Pattern) : Json.Str → Bool
  | .text s => p.accepts s
  | .torn _ => false

def spellChar (c : Char) : List Char :=
  if c = '.' then ['\\', '.'] else [c]

def spellRange (first last : Char) : List Char := ['[', first, '-', last, ']']

mutual

/-- The spelling of a pattern, with parentheses around choices. -/
def spell : Pattern → List Char
  | text cs => cs.flatMap spellChar
  | range first last => spellRange first last
  | many first last => spellRange first last ++ ['*']
  | seq p q => spell p ++ spell q
  | either p q => '(' :: spell p ++ '|' :: spellChoices q ++ [')']

/-- The spelling of the last alternatives of a choice. -/
def spellChoices : Pattern → List Char
  | text cs => cs.flatMap spellChar
  | range first last => spellRange first last
  | many first last => spellRange first last ++ ['*']
  | seq p q => spell p ++ spell q
  | either p q => spell p ++ '|' :: spellChoices q

end

def source (p : Pattern) : String :=
  String.ofList ('^' :: spell p ++ ['$'])

end Pattern

end NotaryNetwork.Contract
