import AutomatonLab.Text.Basic

/-!
# Blank characters

`isBlank` is the white space that surrounds a label part and counts as nothing : the separators of
every kind (`blankRanges`), not only the plain space. `stripEnds` drops the characters of a class
from both ends of a text.
-/

namespace AutomatonLab.Text

/-- The code points of white space, as closed intervals in increasing order. -/
def blankRanges : List (Nat × Nat) :=
  [(0x9, 0xd), (0x1c, 0x20), (0x85, 0x85), (0xa0, 0xa0), (0x1680, 0x1680), (0x2000, 0x200a),
   (0x2028, 0x2029), (0x202f, 0x202f), (0x205f, 0x205f), (0x3000, 0x3000)]

/-- White space of any kind. -/
def isBlank (c : CodePoint) : Bool :=
  blankRanges.any fun (lo, hi) => lo ≤ c.toNat && c.toNat ≤ hi

/-- The text without the characters of the class `p` at its two ends. -/
def stripEnds (p : CodePoint → Bool) (t : Text) : Text :=
  ((t.dropWhile p).reverse.dropWhile p).reverse

end AutomatonLab.Text
