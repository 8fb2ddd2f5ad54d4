import AutomatonLab.Number.Binary64
import AutomatonLab.Text.Basic

/-!
# JSON values

A value keeps the members of an object in the order of the text it was read from; a repeated name
stays at its first place with its last value (`Json.ofMembers`). Integers have any size and are told
apart from other numbers.
-/

namespace AutomatonLab

/-- A JSON value. -/
inductive Json where
  | null
  | bool (b : Bool)
  | int (n : Int)
  | float (x : Binary64)
  | str (s : Text)
  | arr (items : List Json)
  | obj (members : List (Text × Json))
  deriving Repr, Inhabited

namespace Json

/-- The members with the value of `name` replaced where it stands, or added at the end. -/
def setMember (name : Text) (value : Json) : List (Text × Json) → List (Text × Json)
  | [] => [(name, value)]
  | (n, v) :: rest =>
    if n = name then (n, value) :: rest else (n, v) :: setMember name value rest

/-- An object with the members in their order; of a repeated name the last value counts. -/
def ofMembers (members : List (Text × Json)) : Json :=
  obj (members.foldl (fun acc (n, v) => setMember n v acc) [])

/-- The value of the member `name` of an object. -/
def member? (name : Text) : Json → Option Json
  | obj members => members.lookup name
  | _ => none

/-- The text, if the value is one. -/
def str? : Json → Option Text
  | str s => some s
  | _ => none

/-- A value that counts as true : anything but `null`, `false`, a zero and what is empty. -/
def truthy : Json → Bool
  | null => false
  | bool b => b
  | int n => n != 0
  | float x => !x.isZero
  | str s => !s.isEmpty
  | arr items => !items.isEmpty
  | obj members => !members.isEmpty

/-- The values met when going through a value : the items of an array, the code points of a text,
the names of an object. There are none to meet in `null`, a number or a truth value. -/
def elements? : Json → Option (List Json)
  | arr items => some items
  | str s => some ((Text.singletons s).map str)
  | obj members => some (members.map fun (n, _) => str n)
  | _ => none

/-- An array or an object. -/
def isContainer : Json → Bool
  | arr _ => true
  | obj _ => true
  | _ => false

end Json

end AutomatonLab
