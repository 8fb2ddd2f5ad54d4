import AutomatonLab.Fault
import AutomatonLab.Label.Basic
import AutomatonLab.Memory.Stack
import AutomatonLab.Text.Blank

/-!
# The tape of a Turing machine

A `Tape` has a left end and no right one : outside the cells that were filled it holds the blank
symbol. Writing past the cells fills the gap with blanks, and writing left of the first cell writes
into the first cell. The head is a position, kept beside the tape; `Tape.move` moves it, never left
of the first cell.
-/

namespace AutomatonLab

/-- The cells that were filled, from the left end, and the symbol of all others. -/
structure Tape where
  cells : List Text
  blank : Text
  deriving DecidableEq, Repr, Inhabited

namespace Tape

/-- The symbol of a cell that was never written. -/
def defaultBlank : Text := "_"

/-- A tape with a code point of `input` in each cell. -/
def ofInput (input : Text) (blank : Text) : Tape :=
  ⟨Text.singletons input, blank⟩

/-- The symbol at a position. -/
def read (t : Tape) : Int → Text
  | .ofNat n => t.cells[n]?.getD t.blank
  | .negSucc _ => t.blank

/-- The tape with `symbol` at a position, or in the first cell if the position is left of it. -/
def write (t : Tape) (head : Int) (symbol : Text) : Tape :=
  let n := head.toNat
  let filled := t.cells ++ List.replicate (n + 1 - t.cells.length) t.blank
  { t with cells := filled.set n symbol }

/-- The number of cells that cannot be added at once, since there is no room for so many. -/
def room : Int := 1000000000

/-- The least number of cells that cannot be counted in 64 bits with a sign. -/
def uncountable : Int := 9223372036854775808

/-- The number of cells that a symbol at a position adds, if it is positive. -/
def missing (t : Tape) (head : Int) : Int := head + 1 - t.cells.length

/-- The tape with `symbol` at any position, if there is room for it. No run gets near the limit,
since a machine adds one cell at a time. -/
def writeFar (t : Tape) (head : Int) (symbol : Text) : Except Fault Tape :=
  if uncountable ≤ t.missing head then .error .tooLarge
  else if room ≤ t.missing head then .error .noRoom
  else .ok (t.write head symbol)

/-- The position after a move. A direction that is neither left nor right stays. -/
def move (head : Int) (direction : Text) : Int :=
  if direction = Label.right then head + 1
  else if direction = Label.left then max 0 (head - 1)
  else head

/-- The number of cells that are filled. -/
def size (t : Tape) : Nat := t.cells.length

/-- The text on the tape, without the code points of the blank symbol at both ends. -/
def content (t : Tape) : Text :=
  Text.stripEnds (fun c => t.blank.contains c) t.cells.flatten

/-- The tape in the middle of a message. -/
def display (t : Tape) : Text := "Fita([" ++ Text.quotedItems t.cells ++ "])"

end Tape

end AutomatonLab
