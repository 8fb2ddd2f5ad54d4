import AutomatonLab.Json.Basic
import AutomatonLab.Number.Shortest
import AutomatonLab.Text.Quoted

/-!
# Writing JSON

`Json.write` is the form of a saved file : two spaces for each level, a line for each item and each
member, `[]` and an empty pair of braces for what is empty. In a text only the quote, the backslash
and the controls below U+0020 are escaped. The form is made of pieces, of which every text between
quotes is one (`Json.pieces`) : a half of a character cannot be kept in a file, and what is written
ends before the piece that holds the first one (`Json.storable`).
-/

namespace AutomatonLab.Json

/-- One code point of a text between quotes. -/
def writeCodePoint (c : CodePoint) : Text :=
  if c == '"' then ['\\', '"']
  else if c == '\\' then ['\\', '\\']
  else if c == '\n' then ['\\', 'n']
  else if c == '\r' then ['\\', 'r']
  else if c == '\t' then ['\\', 't']
  else if c == '\x08' then ['\\', 'b']
  else if c == '\x0c' then ['\\', 'f']
  else if c.toNat < 0x20 then Text.ofChars ('\\' :: 'u' :: Text.hexDigits 4 c.toNat)
  else [c]

/-- A text between quotes. -/
def writeText (t : Text) : Text :=
  "\"" ++ t.flatMap writeCodePoint ++ "\""

/-- A new line with `level` steps of two spaces. -/
def newLine (level : Nat) : Text :=
  '\n' :: List.replicate (2 * level) (' ' : CodePoint)

/-- The text of a number that is not an integer. -/
def writeFloat : Binary64 → Text
  | .nan => "NaN"
  | .infinite negative => if negative then "-Infinity" else "Infinity"
  | x => x.display

mutual

/-- The pieces of a value whose first line stands at `level`. -/
def pieces (level : Nat) : Json → List Text
  | null => ["null"]
  | bool b => [if b then "true" else "false"]
  | int n => [toString n]
  | float x => [writeFloat x]
  | str s => [writeText s]
  | arr [] => ["[]"]
  | arr (v :: rest) =>
    "[" :: newLine (level + 1) ::
      (pieces (level + 1) v ++ itemPieces (level + 1) rest ++ [newLine level, "]"])
  | obj [] => ["\x7b\x7d"]
  | obj ((n, v) :: rest) =>
    "\x7b" :: newLine (level + 1) :: writeText n :: ": " ::
      (pieces (level + 1) v ++ memberPieces (level + 1) rest ++ [newLine level, "\x7d"])

/-- The items after the first one. -/
def itemPieces (level : Nat) : List Json → List Text
  | [] => []
  | v :: rest => "," :: newLine level :: (pieces level v ++ itemPieces level rest)

/-- The members after the first one. -/
def memberPieces (level : Nat) : List (Text × Json) → List Text
  | [] => []
  | (n, v) :: rest =>
    "," :: newLine level :: writeText n :: ": " :: (pieces level v ++ memberPieces level rest)

end

/-- The text of a value. -/
def write (v : Json) : Text := (pieces 0 v).flatten

/-- The part of the text of a value that a file can keep, all of it unless it holds a half. -/
def storable (v : Json) : String :=
  String.join ((((pieces 0 v).map Text.toString?).takeWhile Option.isSome).filterMap id)

end AutomatonLab.Json
