import AutomatonLab.Json.Basic

/-!
# What is drawn on a canvas

A canvas is a list of items in drawing order. An `Item` has a kind, a list of coordinates of any
type, and a `Style`, whose fields stand only where they are given. What stands for the text of an
item may be another value, which is kept as it is.
-/

namespace AutomatonLab

/-- The kinds of items on a canvas. -/
inductive ItemKind where
  | line
  | text
  | oval
  | rectangle
  | polygon
  deriving DecidableEq, Repr

/-- The name of a kind of items. -/
def ItemKind.name : ItemKind → Text
  | line => "line"
  | text => "text"
  | oval => "oval"
  | rectangle => "rectangle"
  | polygon => "polygon"

/-- A typeface with its size. A named font is one that the toolkit keeps as a thing of its own. -/
structure Font where
  family : Text
  size : Nat
  bold : Bool
  named : Bool
  deriving DecidableEq, Repr

namespace Font

/-- A font of the usual weight. -/
def plain (family : Text) (size : Nat) : Font := ⟨family, size, false, false⟩

/-- A bold font. -/
def strong (family : Text) (size : Nat) : Font := ⟨family, size, true, false⟩

/-- A font as the toolkit is given it. -/
def toJson (f : Font) : Json :=
  if f.named then
    .str (f.family ++ " " ++ toString f.size ++ (if f.bold then " bold" else " normal"))
  else .arr ([.str f.family, .int f.size] ++ if f.bold then [.str "bold"] else [])

end Font

/-- How an item looks. Widths are in thousandths. -/
structure Style where
  text : Option Json := none
  font : Option Font := none
  fill : Option Text := none
  outline : Option Text := none
  width : Option Nat := none
  anchor : Option Text := none
  justify : Option Text := none
  /-- A line that is bent smoothly at its inner points. -/
  smooth : Bool := false
  /-- A line with an arrow at its end. -/
  arrow : Bool := false
  deriving Repr

/-- A picture on a canvas : its kind, its coordinates and its options. -/
structure Item (κ : Type) where
  kind : ItemKind
  coords : List κ
  style : Style
  deriving Repr

end AutomatonLab
