import AutomatonLab.Configuration
import AutomatonLab.Toolkit.Item

/-!
# The memory strip

Below the diagram a strip shows the memory of a run : the top of the stack of a pushdown automaton,
and the tape of a Turing machine or what is left of the input (`MemoryStrip.Contents`). A marker
points at the cell that the machine reads. All coordinates are whole numbers. A cell holds a symbol,
or whatever value stands in its place.
-/

namespace AutomatonLab.MemoryStrip

/-- The side of a cell. -/
def cellSize : Int := 30

/-- The upper end of a heading. -/
def labelTop : Int := 3

/-- The lower end of the cells. -/
def base : Int := 63

/-- The left end of the strip. -/
def margin : Int := 10

/-- The number of symbols of a stack that are shown. -/
def shownStack : Nat := 12

/-- The number of cells that are shown. -/
def shownCells : Nat := 24

/-- What the strip shows. -/
structure Contents where
  formalism : Formalism
  stack : List Text
  tape : List Json
  head : Int
  /-- What is left of the input, if it can be shown. -/
  rest : Except Fault (List Json)

/-- A heading at the top of the strip. -/
def heading (x : Int) (text : Text) : Item Int where
  kind := .text
  coords := [x, labelTop]
  style :=
    { text := some (.str text), anchor := some "nw", font := some (Font.strong "Helvetica" 10) }

/-- The left end of cell number `i` of a row that starts at `x`. -/
def cellLeft (x : Int) (i : Nat) : Int := x + i * cellSize

/-- A cell with a symbol in its middle. -/
def cell (x : Int) (i : Nat) (symbol : Json) (fill outline : Text) : List (Item Int) :=
  let left := cellLeft x i
  [{ kind := .rectangle
     coords := [left, base - cellSize, left + cellSize, base]
     style := { fill := some fill, outline := some outline } },
    { kind := .text
      coords := [left + cellSize / 2, base - cellSize / 2]
      style := { text := some symbol, font := some (Font.plain "Courier" 12) } }]

/-- The symbols on the top of a stack; the top itself is marked. -/
def stackCells (stack : List Text) : List (Item Int) :=
  let shown := stack.drop (stack.length - shownStack)
  if shown.isEmpty then
    [{ kind := .text
       coords := [margin + cellSize / 2, base - cellSize / 2]
       style :=
         { text := some (.str "[vazia]")
           anchor := some "w"
           font := some (Font.plain "Courier" 10)
           fill := some "#888" } }]
  else
    shown.zipIdx.flatMap fun (symbol, i) =>
      cell margin i (.str symbol) (if i + 1 = shown.length then "#e0f2fe" else "#ffffff") "#7dd3fc"

/-- The part of the strip that shows a stack. -/
def stackItems (stack : List Text) : List (Item Int) :=
  heading margin "Pilha:" :: stackCells stack

/-- Where the cells start; a stack takes the place before them. -/
def cellsLeft (formalism : Formalism) : Int :=
  if formalism = .pda then margin + shownStack * cellSize + 30 else margin

/-- The cells of a row, as many as are shown. -/
def rowItems (x : Int) (cells : List Json) : List (Item Int) :=
  (cells.take shownCells).zipIdx.flatMap fun (symbol, i) => cell x i symbol "#f1f5f9" "#cbd5e1"

/-- The marker above the cell at position `head` of a row that starts at `x`. -/
def marker (x head : Int) : Item Int :=
  let middle := x + head * cellSize + cellSize / 2
  { kind := .polygon
    coords := [middle, base - cellSize - 2, middle - 5, base - cellSize - 12,
      middle + 5, base - cellSize - 12]
    style := { fill := some "black" } }

/-- The cells of a tape with at least one cell, and with the one under the head if it is the next
one after the end. -/
def tapeCells (tape : List Json) (head : Int) : List Json :=
  let cells := if tape.isEmpty then [.str "_"] else tape
  if (cells.length : Int) ≤ head then cells ++ [.str "_"] else cells

/-- The cells of what is left of the input, and a mark if nothing is left. -/
def inputCells (rest : List Json) : List Json :=
  if rest.isEmpty then [.str "ε"] else rest

/-- The items of the strip, and why it is not complete if it is not. -/
def draw (c : Contents) : List (Item Int) × Option Fault :=
  let stack := if c.formalism = .pda then stackItems c.stack else []
  let x := cellsLeft c.formalism
  if c.formalism = .tm then
    (stack ++ heading x "Fita:" :: rowItems x (tapeCells c.tape c.head) ++ [marker x c.head], none)
  else
    let title := stack ++ [heading x "Entrada Restante:"]
    match c.rest with
    | .error fault => (title, some fault)
    | .ok rest => (title ++ rowItems x (inputCells rest) ++ [marker x 0], none)

end AutomatonLab.MemoryStrip
