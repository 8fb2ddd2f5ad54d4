import AutomatonLab.Toolkit.Item

/-!
# Calls to the toolkit

A window is put together by calls to a toolkit. A `Layout` is a program that makes such calls; it
names every new widget by its class and a number that counts the widgets of the class, and keeps the
calls in order.
-/

namespace AutomatonLab

/-- One call : a method of a widget with positional and named arguments. -/
structure Call where
  method : Text
  target : Text
  args : List Json
  options : List (Text × Json)

/-- The widgets made so far, by class, and the calls, the last one first. -/
structure Toolkit where
  counts : List (Text × Nat)
  calls : List Call

/-- A program that makes calls to the toolkit. -/
abbrev Layout := StateM Toolkit

namespace Toolkit

/-- No widget has been made yet. -/
def empty : Toolkit := ⟨[], []⟩

/-- The number of widgets made of a class. -/
def count (t : Toolkit) (cls : Text) : Nat := (t.counts.lookup cls).getD 0

/-- One more widget of a class. -/
def increment (t : Toolkit) (cls : Text) : Toolkit :=
  { t with counts := (cls, t.count cls + 1) :: t.counts.filter fun (c, _) => c != cls }

/-- The name of the widget made last of a class. -/
def newest (t : Toolkit) (cls : Text) : Text := cls ++ toString (t.count cls)

end Toolkit

namespace Layout

/-- The calls of a program, in order. -/
def calls (layout : Layout Unit) : List Call :=
  (layout.run .empty).2.calls.reverse

/-- A method of a widget is called. -/
def call (method target : Text) (args : List Json) (options : List (Text × Json)) :
    Layout Unit :=
  modify fun t => { t with calls := ⟨method, target, args, options⟩ :: t.calls }

/-- A new widget of a class, with its name. -/
def create (cls : Text) (args : List Json) (options : List (Text × Json)) : Layout Text := do
  modify fun t => t.increment cls
  let name := (← get).newest cls
  call "new" name args options
  return name

/-- A new widget inside another one. -/
def widget (cls parent : Text) (options : List (Text × Json)) : Layout Text :=
  create cls [.str parent] options

/-- A new picture of the given size. -/
def image (size : Nat) : Layout Text :=
  create "PhotoImage" [.str "RGBA", .arr [.int size, .int size]] []

/-- A widget is put in its place in the window. -/
def pack (target : Text) (options : List (Text × Json)) : Layout Unit :=
  call "pack" target [] options

/-- Options of a widget are set. -/
def config (target : Text) (options : List (Text × Json)) : Layout Unit :=
  call "config" target [] options

/-- Something is done when an event comes to a widget. -/
def bind (target event : Text) : Layout Unit :=
  call "bind" target [.str event] []

/-- The same, beside what is done already. -/
def bindToo (target event : Text) : Layout Unit :=
  call "bind" target [.str event] [("add", .str "+")]

/-- A menu gets one more entry. -/
def command (menu label : Text) : Layout Unit :=
  call "add_command" menu [.str label] []

/-- A pair of distances. -/
def pair (a b : Nat) : Json := .arr [.int a, .int b]

end Layout

end AutomatonLab
