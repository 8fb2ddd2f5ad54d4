import AutomatonLab.Decision
import AutomatonLab.Number.Native
import AutomatonLab.Toolkit.Item

/-!
# The diagram of an automaton

The states stand on a circle (`Diagram.circle`). `Diagram.draw` draws an edge for every pair of
states that a transition joins, with the labels of its transitions one below the other, and then the
states : the current one is marked, a final one has two circles, an initial one an arrow. An edge
from a state to itself is a loop above it, and two edges in opposite directions are bent. Drawing
stops where a state has no place, or where its place is too far away for a number.
-/

namespace AutomatonLab

/-- The colour of a status that ends a run. -/
def Status.colour? : Status → Option Text
  | accepted => some "#16a34a"
  | rejected => some "#dc2626"
  | stuck => some "#d97706"
  | _ => none

namespace Diagram

/-- Where the states stand, from the middle of the canvas. -/
abbrev Places := List (Text × Float × Float)

/-- What a diagram shows. -/
structure Scene where
  automaton : Automaton
  places : Places
  /-- The width and the height of the canvas. -/
  size : Int × Int
  current : Option Text
  /-- The ends of the edge that is marked. -/
  highlight : Option (Text × Text)
  status : Status

/-- The radius of the circle of a state. -/
def stateRadius : Float := 24

/-- The radius of the circle on which the states stand. -/
def circleRadius : Float := 180

/-- The native number nearest to the ratio of a circle to its diameter. -/
def pi : Float := 3.141592653589793

/-- The places of `states` on a circle, the first one on the right. -/
def circle (states : List State) : Places :=
  states.zipIdx.map fun (s, i) =>
    let angle := i.toFloat / states.length.toFloat * pi * 2
    (s.name, circleRadius * angle.cos, circleRadius * angle.sin)

/-- The transitions from one state to another, by their labels. -/
structure Edge where
  source : Text
  target : Text
  labels : List Text
  deriving DecidableEq, Repr

/-- The edges with one more transition : it joins the edge with its ends, or is a new one. -/
def insert (t : Transition) : List Edge → List Edge
  | [] => [⟨t.source, t.target, [t.label.text]⟩]
  | e :: rest =>
    if e.source = t.source ∧ e.target = t.target then
      { e with labels := e.labels ++ [t.label.text] } :: rest
    else e :: insert t rest

/-- The edges of a list of transitions, in the order of their first transitions. -/
def edges (ts : List Transition) : List Edge :=
  ts.foldl (fun acc t => insert t acc) []

namespace Scene

variable (s : Scene)

/-- The place of a state on the canvas. -/
def place (name : Text) : Except Fault (Float × Float) :=
  match s.places.lookup name with
  | none => .error (.missingKey name)
  | some (x, y) =>
    match Binary64.half? s.size.1, Binary64.half? s.size.2 with
    | some right, some down => .ok (x + right, y + down)
    | _, _ => .error .tooLarge

/-- Some transition goes from `source` to `target`. -/
def joins (source target : Text) : Bool :=
  s.automaton.transitions.any fun t => t.source == source && t.target == target

/-- The line of an edge, which is marked if its transition was taken last. -/
def edgeStyle (active : Bool) : Style :=
  { fill := some (if active then "#0284c7" else "black")
    width := some (if active then 3000 else 1500)
    smooth := true
    arrow := true }

/-- The labels of an edge, one below the other. -/
def labelItem (active : Bool) (labels : List Text) (x y : Float) : Item Float :=
  { kind := .text
    coords := [x, y]
    style :=
      { text := some (.str (Text.join "\n" labels))
        fill := some (if active then "#0284c7" else "black")
        justify := some "center"
        font := some (Font.plain "Helvetica" 11) } }

/-- An edge from a state at `(x, y)` to itself. -/
def loop (active : Bool) (labels : List Text) (x y : Float) : List (Item Float) :=
  let rad := stateRadius
  let rx := rad * 1.2
  let ry := rad * 1.6
  let cy := y - ry * 0.8
  [{ kind := .line
     coords := [x - rad * 0.5, y - rad * 0.8, x - rx, cy - ry, x + rx, cy - ry,
       x + rad * 0.5, y - rad * 0.8]
     style := edgeStyle active },
    labelItem active labels x (cy - ry * 0.9 - 6 * labels.length.toFloat)]

/-- An edge between two states at different places. -/
def arc (active bent : Bool) (labels : List Text) (x1 y1 x2 y2 : Float) :
    List (Item Float) :=
  let rad := stateRadius
  let dx := x2 - x1
  let dy := y2 - y1
  let length := Hypotenuse.length dx dy
  let dist := if length == 0 then 1 else length
  let ux := dx / dist
  let uy := dy / dist
  let bend : Float := if bent then 0.25 else 0
  let sx := x1 + ux * rad
  let sy := y1 + uy * rad
  let ex := x2 - ux * rad
  let ey := y2 - uy * rad
  let cx := (sx + ex) / 2 - uy * dist * bend
  let cy := (sy + ey) / 2 + ux * dist * bend
  [{ kind := .line
     coords := [sx, sy, cx, cy, ex, ey]
     style := edgeStyle active },
    labelItem active labels (cx - uy * 15) (cy + ux * 15)]

/-- The items of an edge. -/
def edgeItems (e : Edge) : Except Fault (List (Item Float)) := do
  let (x1, y1) ← s.place e.source
  let (x2, y2) ← s.place e.target
  let active := s.highlight == some (e.source, e.target)
  if e.source = e.target then return loop active e.labels x1 y1
  else return arc active (s.joins e.target e.source) e.labels x1 y1 x2 y2

/-- A circle around `(x, y)`. -/
def oval (x y radius : Float) (style : Style) : Item Float :=
  { kind := .oval
    coords := [x - radius, y - radius, x + radius, y + radius]
    style := style }

/-- The outer circle of a state. -/
def bodyStyle (active : Bool) : Style :=
  if active then
    { fill := some "#e0f2fe"
      outline := some (s.status.colour?.getD "#0284c7")
      width := some 3000 }
  else { fill := some "white", outline := some "black", width := some 2000 }

/-- The items of a state. -/
def stateItems (q : State) : Except Fault (List (Item Float)) := do
  let (x, y) ← s.place q.name
  let rad := stateRadius
  let body := [oval x y rad (s.bodyStyle (s.current == some q.name))]
  let inner :=
    if q.final then [oval x y (rad - 4) { outline := some "black", width := some 1000 }] else []
  let name : List (Item Float) :=
    [{ kind := .text
       coords := [x, y]
       style := { text := some (.str q.name), font := some (Font.plain "Helvetica" 13) } }]
  let entry : List (Item Float) :=
    if q.initial then
      [{ kind := .line
         coords := [x - rad * 2, y, x - rad, y]
         style := { width := some 2000, arrow := true } }]
    else []
  return body ++ inner ++ name ++ entry

end Scene

/-- The items of several parts, up to the first part that cannot be drawn. -/
def collect {κ : Type} : List (Except Fault (List (Item κ))) → List (Item κ) × Option Fault
  | [] => ([], none)
  | .error fault :: _ => ([], some fault)
  | .ok items :: rest =>
    let (more, fault) := collect rest
    (items ++ more, fault)

/-- The items of a diagram, and why it is not complete if it is not. -/
def draw (s : Scene) : List (Item Float) × Option Fault :=
  collect ((edges s.automaton.transitions).map s.edgeItems ++ s.automaton.states.map s.stateItems)

end Diagram

end AutomatonLab
