import NotaryNetwork.Key.Spki
import NotaryNetwork.Text.Base64
import NotaryNetwork.Text.Search
import NotaryNetwork.Text.Utf8

/-!
# Public keys as text

Bytes in base64 between a line that names what begins and a line that names what ends, 64 characters
a line. What stands before the first block is skipped, and so is all that follows it. A block may have
lines of headers, which end with an empty line; white space in the base64 is passed over.
-/

namespace NotaryNetwork.Key.Pem

/-- Lines of 64 characters, each ended by a line feed. The first argument bounds their number. -/
def lines : Nat → List Char → List Char
  | 0, _ => []
  | _, [] => []
  | count + 1, cs => cs.take 64 ++ '\n' :: lines count (cs.drop 64)

def block (label : List Char) (bytes : Bytes) : List Char :=
  let text := Text.Base64.encode bytes
  "-----BEGIN ".toList ++ label ++ "-----\n".toList ++ lines text.length text ++
    "-----END ".toList ++ label ++ "-----\n".toList

def label : List Char := "PUBLIC KEY".toList

/-- The label of RSA keys without their algorithm. -/
def rsaLabel : List Char := "RSA PUBLIC KEY".toList

def encode (key : PublicKey) : String :=
  String.ofList (block label (Spki.encode key))

/-! ## Reading -/

/-- The text before a mark and the text after it. The first argument is the mark, the second what is
still to come of it, the third what has been read, last character first. A character that breaks off
a mark is passed over, also where it could begin the mark anew. -/
def seekFrom (mark : List Char) :
    List Char → List Char → List Char → Option (List Char × List Char)
  | [], seen, cs => some ((seen.drop mark.length).reverse, cs)
  | _ :: _, _, [] => none
  | m :: todo, seen, c :: cs =>
    if c = m then seekFrom mark todo (c :: seen) cs else seekFrom mark mark (c :: seen) cs

/-- The text before a mark and the text after it. -/
def seek (mark : String) (cs : List Char) : Option (List Char × List Char) :=
  seekFrom mark.toList mark.toList [] cs

/-- Blanks after a line that begins a block. -/
def isGap (c : Char) : Bool :=
  c = ' ' || c = '\t' || c = '\n' || c = '\r'

/-- The lines of a text; a line feed at the end begins no further line. -/
def splitLines : List Char → List (List Char)
  | [] => []
  | c :: cs =>
    if c = '\n' then [] :: splitLines cs
    else match splitLines cs with
      | line :: rest => (c :: line) :: rest
      | [] => [[c]]

/-- The text after the headers. Headers end with an empty line and have a colon in every line. -/
def dropHeaders? (body : List Char) : Option (List Char) :=
  match seek "\n\n" body <|> seek "\r\n\r\n" body with
  | none => some body
  | some (headers, rest) =>
    if (splitLines headers).all (·.contains ':') then some rest else none

/-- The bytes of the text of a block. -/
def contents? (body : List Char) : Option Bytes := do
  let text ← dropHeaders? body
  Text.Base64.decode? (text.filter fun c => !Text.isWhiteSpace c)

/-- The label and the bytes of the first block. Both lines of a block have the same label, which is
not empty. -/
def firstBlock? (cs : List Char) : Option (List Char × Bytes) := do
  let (_, cs) ← seek "-----BEGIN " cs
  let (first, cs) ← seek "-----" cs
  let (body, cs) ← seek "-----END " (cs.dropWhile isGap)
  let (last, _) ← seek "-----" cs
  if first = last ∧ first ≠ [] then
    let bytes ← contents? body
    return (first, bytes)
  else none

/-- Why a text is no public key. -/
inductive Fault
  | notAscii (error : Text.Ascii.EncodeError)
  | malformed
  | unsupported
deriving DecidableEq

def decodeGeneral (bytes : Bytes) : Except Fault PublicKey :=
  match Spki.decode bytes with
  | .ok key => .ok key
  | .error .malformed => .error .malformed
  | .error .unsupported => .error .unsupported

/-- The key of bytes with the label of RSA keys: its numbers, or a whole RSA key with its algorithm. -/
def decodeRsa (bytes : Bytes) : Except Fault PublicKey :=
  match Spki.decodeRsa? bytes with
  | some key => .ok key
  | none =>
    match Spki.decode bytes with
    | .ok (.rsa modulus exponent) => .ok (.rsa modulus exponent)
    | _ => .error .malformed

/-- The public key of a text, which is that of its first block. -/
def decode (text : String) : Except Fault PublicKey := do
  let cs := text.toList
  let _ ← (Text.Ascii.encode cs).mapError .notAscii
  match firstBlock? cs with
  | none => throw .malformed
  | some (name, bytes) =>
    if name = label then decodeGeneral bytes
    else if name = rsaLabel then decodeRsa bytes
    else throw .malformed

end NotaryNetwork.Key.Pem
