import AutomatonLab.Json.Basic
import AutomatonLab.Number.Shortest
import AutomatonLab.Text.Quoted

/-!
# How messages show a value

`Json.display` is the form of a value in the middle of a message, with texts between quotes;
`Json.text` is the same but for a text, which stands for itself.
-/

namespace AutomatonLab.Json

/-- The words for `null` and for the two truth values in a message. -/
def displayWord : Option Bool → Text
  | none => "None"
  | some true => "True"
  | some false => "False"

mutual

/-- A value in the middle of a message. -/
def display : Json → Text
  | null => displayWord none
  | bool b => displayWord (some b)
  | int n => toString n
  | float x => x.display
  | str s => Text.quoted s
  | arr items => "[" ++ Text.join ", " (displayItems items) ++ "]"
  | obj members => "\x7b" ++ Text.join ", " (displayMembers members) ++ "\x7d"

/-- The items of an array. -/
def displayItems : List Json → List Text
  | [] => []
  | v :: rest => display v :: displayItems rest

/-- The members of an object. -/
def displayMembers : List (Text × Json) → List Text
  | [] => []
  | (n, v) :: rest => (Text.quoted n ++ ": " ++ display v) :: displayMembers rest

end

/-- A value on its own in a message : a text stands for itself. -/
def text : Json → Text
  | str s => s
  | v => v.display

end AutomatonLab.Json
