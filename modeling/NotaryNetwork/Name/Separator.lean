import NotaryNetwork.Text.Search

/-!
# Blanks after separators

A name may have blanks after the commas between its parts. Two definitions of taking them out.

`squeeze` looks at every place on its own: a comma is a separator if the backslashes before it are
even in number, so that none of them escapes it, and blanks after a separator are left out. `scan`
goes from left to right and takes a backslash and the character after it as one unit; a comma that is
in no unit is a separator.
-/

namespace NotaryNetwork.Name

open Text (isBlank)

/-- An even run of backslashes, as long as it can be, and the text after it. -/
def takePairs : List Char → List Char × List Char
  | '\\' :: '\\' :: cs =>
    let (pairs, rest) := takePairs cs
    ('\\' :: '\\' :: pairs, rest)
  | cs => ([], cs)

/-- A separator with blanks after it at the start of the text: its backslashes and the comma, and the
number of characters with the blanks. -/
def separator? (cs : List Char) : Option (List Char × Nat) :=
  match takePairs cs with
  | (pairs, ',' :: rest) =>
    match rest.takeWhile isBlank with
    | [] => none
    | blanks => some (pairs ++ [','], pairs.length + 1 + blanks.length)
  | _ => none

/-- Goes on from a place: whether a backslash stands before it, and how many characters there belong
to a separator that has been written. -/
def squeezeFrom : Bool → Nat → List Char → List Char
  | _, _, [] => []
  | _, skip + 1, c :: cs => squeezeFrom (c = '\\') skip cs
  | true, 0, c :: cs => c :: squeezeFrom (c = '\\') 0 cs
  | false, 0, c :: cs =>
    match separator? (c :: cs) with
    | some (kept, length) => kept ++ squeezeFrom (c = '\\') (length - 1) cs
    | none => c :: squeezeFrom (c = '\\') 0 cs

/-- The text without the blanks after its separators. -/
def squeeze (cs : List Char) : List Char :=
  squeezeFrom false 0 cs

/-- Goes on from a place where a unit starts; `dropping` says that only blanks stand between the
place and the separator before it. -/
def scanFrom : Bool → List Char → List Char
  | _, [] => []
  | _, ['\\'] => ['\\']
  | _, '\\' :: c :: cs => '\\' :: c :: scanFrom false cs
  | _, ',' :: cs => ',' :: scanFrom true cs
  | dropping, c :: cs =>
    if dropping && isBlank c then scanFrom true cs else c :: scanFrom false cs

/-- The text without the blanks after every comma that no backslash escapes. -/
def scan (cs : List Char) : List Char :=
  scanFrom false cs

end NotaryNetwork.Name
