import AutomatonLab.Text.Printable

/-!
# Quoted texts

Messages show a text between quotes, with what could not be read back, or not be seen, written as
escapes. `quoted` is that form : single quotes, unless the text holds a single quote and no double
one.
-/

namespace AutomatonLab.Text

/-- The hexadecimal digits of `n`, with leading zeros up to `width` digits. -/
def hexDigits (width n : Nat) : List Char :=
  let digits := Nat.toDigits 16 n
  List.replicate (width - digits.length) '0' ++ digits

/-- The quote around a text : single, unless the text holds a single quote and no double one. -/
def quoteFor (t : Text) : CodePoint :=
  if t.contains '\'' && !t.contains '"' then '"' else '\''

/-- The escape of the code point with the code `n`. -/
def codeEscape (n : Nat) : Text :=
  ofChars <|
    if n < 0x100 then '\\' :: 'x' :: hexDigits 2 n
    else if n < 0x10000 then '\\' :: 'u' :: hexDigits 4 n
    else '\\' :: 'U' :: hexDigits 8 n

/-- One code point between two `quote`s. -/
def escaped (quote c : CodePoint) : Text :=
  if c == quote || c == '\\' then ['\\', c]
  else if c == '\n' then ['\\', 'n']
  else if c == '\r' then ['\\', 'r']
  else if c == '\t' then ['\\', 't']
  else if isPrintable c then [c]
  else codeEscape c.toNat

/-- The text between quotes, with escapes. -/
def quoted (t : Text) : Text :=
  let quote := quoteFor t
  quote :: t.flatMap (escaped quote) ++ [quote]

/-- Several texts in the middle of a message. -/
def quotedItems (items : List Text) : Text :=
  join ", " (items.map quoted)

end AutomatonLab.Text
