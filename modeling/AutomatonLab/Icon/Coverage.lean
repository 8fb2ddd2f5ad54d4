import AutomatonLab.Icon.Basic

/-!
# Which pixels an icon covers

A pixel of an icon is made of four by four pixels of the canvas. `Icon.coverage` counts how many of
these lie in a mark, which tells a solid pixel from an empty one; near the outline of a mark it is
neither. All lengths are whole numbers : the unit is half a hundredth of a pixel of the canvas.
-/

namespace AutomatonLab

/-- A point in half hundredths of a pixel. -/
structure Point where
  x : Int
  y : Int

namespace Point

/-- The middle of a pixel of the canvas. -/
def ofPixel (x y : Nat) : Point := ⟨200 * x + 100, 200 * y + 100⟩

/-- The point with coordinates in hundredths of the side. -/
def ofHundredths (side : Nat) (p : Nat × Nat) : Point := ⟨2 * side * p.1, 2 * side * p.2⟩

/-- The way from one point to another. -/
def sub (p q : Point) : Point := ⟨p.x - q.x, p.y - q.y⟩

/-- The cross product : its sign says on which side of `p` the point `q` lies. -/
def cross (p q : Point) : Int := p.x * q.y - p.y * q.x

/-- The square of the distance from the origin. -/
def norm (p : Point) : Int := p.x * p.x + p.y * p.y

end Point

namespace Mark

/-- A point lies in a convex polygon : it is on the same side of all edges. -/
def inPolygon (side : Nat) (points : List (Nat × Nat)) (p : Point) : Bool :=
  let corners := points.map (Point.ofHundredths side)
  let turns := corners.zipWith
    (fun a b => (b.sub a).cross (p.sub a)) (corners.drop 1 ++ corners.take 1)
  turns.all (0 ≤ ·) || turns.all (· ≤ 0)

/-- The point lies in the rectangle, its border included. -/
def inRectangle (side : Nat) (b : Box) (p : Point) : Bool :=
  let low := Point.ofHundredths side (b.left, b.top)
  let high := Point.ofHundredths side (b.right, b.bottom)
  low.x ≤ p.x && p.x ≤ high.x && low.y ≤ p.y && p.y ≤ high.y

/-- The point seen from the middle of a square. -/
def fromCentre (side : Nat) (b : Box) (p : Point) : Point :=
  p.sub ⟨side * (b.left + b.right : Nat), side * (b.top + b.bottom : Nat)⟩

/-- Half the side of a square. -/
def radius (side : Nat) (b : Box) : Int := side * (b.right - b.left : Nat)

/-- The point lies in the disc in the box. -/
def inDisc (side : Nat) (b : Box) (p : Point) : Bool :=
  (fromCentre side b p).norm ≤ radius side b * radius side b

/-- A point lies on a line of the given width inside the outline of a disc. -/
def inRing (side : Nat) (b : Box) (width : Nat) (p : Point) : Bool :=
  let inner := radius side b - 200 * Icon.lineWidth side width
  inDisc side b p && inner * inner ≤ (fromCentre side b p).norm

/-- A direction at an angle that is used, to three digits. -/
def direction : Nat → Point
  | 40 => ⟨766, 643⟩
  | 330 => ⟨866, -500⟩
  | _ => ⟨1000, 0⟩

/-- A point is seen from the centre between two angles; what is left out is less than a half
turn. -/
def inSector (side : Nat) (b : Box) (start stop : Nat) (p : Point) : Bool :=
  let d := fromCentre side b p
  !(0 < (direction stop).cross d && 0 < d.cross (direction start))

/-- The mark covers the point. -/
def covers (side : Nat) (p : Point) : Mark → Bool
  | polygon points _ => inPolygon side points p
  | rectangle b _ => inRectangle side b p
  | arc b start stop _ width => inRing side b width p && inSector side b start stop p
  | ellipse b (some _) _ _ => inDisc side b p
  | ellipse b none _ width => inRing side b width p

end Mark

/-- How a pixel of an icon looks. -/
inductive PixelKind where
  | solid
  | empty
  | edge
  deriving DecidableEq, Repr

/-- The name of a kind of pixels. -/
def PixelKind.name : PixelKind → Text
  | solid => "solid"
  | empty => "empty"
  | edge => "edge"

namespace Icon

/-- The number of pixels of the canvas, of sixteen, that make up a pixel and lie in a mark. -/
def coverage (i : Icon) (size x y : Nat) : Nat :=
  (List.range 16).countP fun n =>
    i.marks.any fun m => m.covers (side size) (.ofPixel (4 * x + n % 4) (4 * y + n / 4))

/-- A pixel is solid if more than three quarters of it are covered, and empty if less than one
quarter is. -/
def pixel (i : Icon) (size x y : Nat) : PixelKind :=
  let n := i.coverage size x y
  if 12 < n then .solid else if n ≤ 4 then .empty else .edge

end Icon

end AutomatonLab
