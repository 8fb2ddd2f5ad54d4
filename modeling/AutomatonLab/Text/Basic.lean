/-!
# Texts

A `Text` is a sequence of code points. Nearly every code point is a character; the others are the
halves of the pairs by which a code of 16-bit units writes the characters from U+10000 on. A half
that stands on its own is no character, but a text may hold it all the same (`CodePoint.half`), and
then there is no string of the same characters (`Text.toString?`). Two halves in a row stay two code
points, unless they were written as a pair (`CodePoint.ofPair?`).
-/

namespace AutomatonLab

/-- One unit of a text. -/
inductive CodePoint where
  | char (c : Char)
  /-- Number `n` of the halves, the first halves of a pair before the second ones. -/
  | half (n : Fin 0x800)
  deriving DecidableEq, Repr, Inhabited

namespace CodePoint

/-- A character stands where a code point is expected. -/
instance : Coe Char CodePoint := ⟨char⟩

/-- The code of the first half. -/
def halfBase : Nat := 0xd800

/-- The number of first halves, and that of second halves. -/
def pairBase : Nat := 0x400

/-- The code of a code point. -/
def toNat : CodePoint → Nat
  | char c => c.toNat
  | half n => halfBase + n

/-- The code point of a code, which is a half if no character has the code. -/
def ofNat (n : Nat) : CodePoint :=
  if h : halfBase ≤ n ∧ n - halfBase < 0x800 then half ⟨n - halfBase, h.2⟩ else char (Char.ofNat n)

/-- A code point is known by its code, since no character has the code of a half. -/
@[simp] theorem ofNat_toNat (c : CodePoint) : ofNat c.toNat = c := by
  cases c with
  | half n => simp [ofNat, toNat]
  | char c =>
    have h : ¬(halfBase ≤ c.toNat ∧ c.toNat - halfBase < 0x800) := by
      have := c.valid
      simp only [UInt32.isValidChar, Nat.isValidChar] at this
      unfold halfBase Char.toNat
      omega
    simp [ofNat, toNat, h]

/-- The character that a first half and a second half stand for as a pair. -/
def ofPair? : CodePoint → CodePoint → Option CodePoint
  | half n, half m =>
    if n < pairBase ∧ pairBase ≤ m then
      some (char (Char.ofNat (0x10000 + n * pairBase + (m - pairBase))))
    else none
  | _, _ => none

/-- The character, if the code point is one. -/
def char? : CodePoint → Option Char
  | char c => some c
  | half _ => none

end CodePoint

/-- A sequence of code points. -/
abbrev Text := List CodePoint

namespace Text

/-- Texts that are found equal are the same. -/
instance : LawfulBEq Text := inferInstance

/-- The text of the given characters. -/
def ofChars (cs : List Char) : Text := cs.map .char

/-- The text of the characters of a string. -/
def ofString (s : String) : Text := ofChars s.toList

/-- A string stands where a text is expected. -/
instance : Coe String Text := ⟨ofString⟩

/-- The string with the characters of the text, none if the text holds a half. -/
def toString? (t : Text) : Option String := (t.mapM CodePoint.char?).map String.ofList

/-- A text of each code point. -/
def singletons (t : Text) : List Text := t.map fun c => [c]

/-- The texts one after the other, with `separator` between them. -/
def join (separator : Text) (items : List Text) : Text := separator.intercalate items

end Text

end AutomatonLab
