import AutomatonLab.Fault

/-!
# Icons

An `Icon` is a list of marks on a square canvas, whose coordinates are hundredths of the side. It is
drawn on a canvas of four times its size, and then reduced (`Icon.side`).
-/

namespace AutomatonLab

/-- A colour with its opacity, each part below 256. -/
structure Colour where
  red : Nat
  green : Nat
  blue : Nat
  alpha : Nat
  deriving DecidableEq, Repr

/-- A square in hundredths of the side. -/
structure Box where
  left : Nat
  top : Nat
  right : Nat
  bottom : Nat
  deriving DecidableEq, Repr

/-- One thing drawn. Angles are degrees, clockwise from the right; the width of a line is in
hundredths of the side. -/
inductive Mark where
  | polygon (points : List (Nat × Nat)) (fill : Colour)
  | rectangle (box : Box) (fill : Colour)
  | arc (box : Box) (start stop : Nat) (fill : Colour) (width : Nat)
  | ellipse (box : Box) (fill : Option Colour) (outline : Colour) (width : Nat)
  deriving DecidableEq, Repr

/-- A picture : its marks, one above the other. -/
structure Icon where
  name : Text
  marks : List Mark
  deriving DecidableEq, Repr

namespace Icon

/-- Nearly black, the colour of outlines and of what stops a run. -/
def ink : Colour := ⟨33, 37, 41, 255⟩

/-- The yellow of the logo. -/
def accent : Colour := ⟨255, 193, 7, 255⟩

/-- The blue of what starts a run. -/
def blue : Colour := ⟨0, 123, 255, 255⟩

/-- A triangle that points to the right. -/
def play : Icon :=
  ⟨"executar", [.polygon [(30, 20), (30, 80), (80, 50)] blue]⟩

/-- A triangle before a bar. -/
def step : Icon :=
  ⟨"passo", [.polygon [(20, 20), (20, 80), (62, 50)] blue, .rectangle ⟨66, 20, 80, 80⟩ blue]⟩

/-- Two bars. -/
def pause : Icon :=
  ⟨"pausar", [.rectangle ⟨25, 20, 42, 80⟩ ink, .rectangle ⟨58, 20, 75, 80⟩ ink]⟩

/-- An arrow that goes round. -/
def reset : Icon :=
  ⟨"reiniciar", [.arc ⟨20, 20, 80, 80⟩ 40 330 ink 9,
    .polygon [(62, 12), (86, 30), (60, 38)] ink]⟩

/-- A final state : two circles around one centre. -/
def logo : Icon :=
  ⟨"logo", [.ellipse ⟨6, 6, 94, 94⟩ (some accent) ink 5, .ellipse ⟨20, 20, 80, 80⟩ none ink 5]⟩

/-- The icons in the order they are made. -/
def all : List Icon := [play, step, pause, reset, logo]

/-- The icon of the given name. -/
def load (name : Text) : Except Fault Icon :=
  match all.find? fun i => i.name == name with
  | some i => .ok i
  | none => .error (.missingKey name)

/-- The side of an icon in the window. -/
def defaultSize : Nat := 40

/-- A size that an icon can have. -/
def checkSize (n : Int) : Except Fault Nat :=
  if n < 0 then .error .negativeSide else .ok n.toNat

/-- The side of the canvas on which an icon of the given size is drawn. -/
def side (size : Nat) : Nat := 4 * size

/-- A coordinate on the canvas, in thousandths of its unit. -/
def thousandths (side hundredths : Nat) : Nat := side * hundredths * 10

/-- The width of a line on the canvas, a whole number and never zero. -/
def lineWidth (side hundredths : Nat) : Nat := max 1 (side * hundredths / 100)

end Icon

namespace Box

/-- The four sides of a box, as a mark is drawn with. -/
def corners (b : Box) : List Nat := [b.left, b.top, b.right, b.bottom]

end Box

end AutomatonLab
