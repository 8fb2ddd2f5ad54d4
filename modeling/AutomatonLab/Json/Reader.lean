import AutomatonLab.Json.Basic

/-!
# Reading JSON

`Json.read` accepts a JSON text, and besides the words `NaN`, `Infinity` and `-Infinity`. The
functions below take the text that is left and return what they read with the rest; a failure keeps
the text that was left where it was noticed (`Json.Stop`), from which `SyntaxError.of` computes its
place. Two limits hold : an integer has at most `Json.maxDigits` digits,
and arrays and objects are nested at most `Json.maxDepth` deep.
-/

namespace AutomatonLab.Json

/-- Why a text is no JSON. -/
inductive SyntaxCause where
  | byteOrderMark
  | value
  | memberName
  | colon
  | comma
  | extraData
  | openText
  | control
  | escape
  | codeEscape
  deriving DecidableEq, Repr

/-- The wording of a cause. -/
def SyntaxCause.message : SyntaxCause → Text
  | byteOrderMark => "Unexpected UTF-8 BOM (decode using utf-8-sig)"
  | value => "Expecting value"
  | memberName => "Expecting property name enclosed in double quotes"
  | colon => "Expecting ':' delimiter"
  | comma => "Expecting ',' delimiter"
  | extraData => "Extra data"
  | openText => "Unterminated string starting at"
  | control => "Invalid control character at"
  | escape => "Invalid \\escape"
  | codeEscape => "Invalid \\uXXXX escape"

/-- A cause with its place : the line and the column count from one, the offset from zero. -/
structure SyntaxError where
  cause : SyntaxCause
  line : Nat
  column : Nat
  offset : Nat
  deriving DecidableEq, Repr

/-- What is said of a text that is no value, with the place where it breaks off. -/
def SyntaxError.message (e : SyntaxError) : Text :=
  e.cause.message ++ ": line " ++ toString e.line ++ " column " ++ toString e.column
    ++ " (char " ++ toString e.offset ++ ")"

/-- The place before the last `left` code points of `text`. -/
def SyntaxError.of (cause : SyntaxCause) (text : Text) (left : Nat) : SyntaxError :=
  let before := text.take (text.length - left)
  let lastLine := before.reverse.takeWhile (· != .char '\n')
  ⟨cause, before.count (.char '\n') + 1, lastLine.length + 1, before.length⟩

/-- Why reading ends : at a flaw, with the text that was left, or at a limit. -/
inductive Stop where
  | flaw (cause : SyntaxCause) (left : Text)
  /-- An integer has `count` digits. -/
  | tooManyDigits (count : Nat)
  | tooDeep

/-- Why a text is not read. -/
inductive ReadError where
  | malformed (error : SyntaxError)
  | tooManyDigits (count : Nat)
  | tooDeep
  deriving DecidableEq, Repr

/-- The number of digits that an integer may have. -/
def maxDigits : Nat := 4300

/-- The number of arrays and objects that may be nested. -/
def maxDepth : Nat := 990

/-- What is said of a text that cannot be read. -/
def ReadError.message : ReadError → Text
  | malformed error => error.message
  | tooManyDigits count =>
    "Exceeds the limit (" ++ toString maxDigits
      ++ " digits) for integer string conversion: value has " ++ toString count
      ++ " digits; use sys.set_int_max_str_digits() to increase the limit"
  | tooDeep => "nested too deep"

/-- The error of a text whose reading ended. -/
def Stop.error (text : Text) : Stop → ReadError
  | flaw cause left => .malformed (.of cause text left.length)
  | tooManyDigits count => .tooManyDigits count
  | tooDeep => .tooDeep

/-- The white space between tokens. -/
def isSpace (c : CodePoint) : Bool :=
  c == ' ' || c == '\t' || c == '\n' || c == '\r'

/-- The text behind the white space at its beginning. -/
def skipSpace (cs : Text) : Text :=
  cs.dropWhile isSpace

/-! ## Texts -/

/-- The value of a hexadecimal digit. -/
def hexValue? : CodePoint → Option Nat
  | .half _ => none
  | .char c =>
    if '0' ≤ c && c ≤ '9' then some (c.toNat - '0'.toNat)
    else if 'a' ≤ c && c ≤ 'f' then some (c.toNat - 'a'.toNat + 10)
    else if 'A' ≤ c && c ≤ 'F' then some (c.toNat - 'A'.toNat + 10)
    else none

/-- The code point whose code four hexadecimal digits give. -/
def codePoint? (a b c d : CodePoint) : Option CodePoint := do
  let a ← hexValue? a
  let b ← hexValue? b
  let c ← hexValue? c
  let d ← hexValue? d
  return .ofNat (((a * 16 + b) * 16 + c) * 16 + d)

/-- What stands between quotes for a code point : itself or a short escape, or its code. -/
inductive Written where
  | plain (c : CodePoint)
  | code (c : CodePoint)

/-- The text that is written. Two codes in a row that are a pair of halves stand for one
character. -/
def joinWritten : List Written → Text
  | [] => []
  | .plain c :: rest => c :: joinWritten rest
  | [.code c] => [c]
  | .code c :: .plain d :: rest => c :: d :: joinWritten rest
  | .code c :: .code d :: rest =>
    match CodePoint.ofPair? c d with
    | some e => e :: joinWritten rest
    | none => c :: joinWritten (.code d :: rest)

/-- The character that a letter stands for after a backslash. -/
def shortEscape? : CodePoint → Option CodePoint
  | .char '"' => some '"'
  | .char '\\' => some '\\'
  | .char '/' => some '/'
  | .char 'b' => some '\x08'
  | .char 'f' => some '\x0c'
  | .char 'n' => some '\n'
  | .char 'r' => some '\r'
  | .char 't' => some '\t'
  | _ => none

/-- What is written after the opening quote of a text, with the rest. `opening` is what was left at
that quote. A code is looked at only if something follows its four digits. -/
def readWritten (opening : Text) : Text → Except Stop (List Written × Text)
  | [] => .error (.flaw .openText opening)
  | .char '"' :: rest => .ok ([], rest)
  | [.char '\\'] => .error (.flaw .openText opening)
  | .char '\\' :: .char 'u' :: a :: b :: c :: d :: rest =>
    match rest, codePoint? a b c d with
    | [], _ => .error (.flaw .codeEscape ['u', a, b, c, d])
    | _, none => .error (.flaw .codeEscape ('u' :: a :: b :: c :: d :: rest))
    | _, some e => do
      let (written, rest) ← readWritten opening rest
      return (.code e :: written, rest)
  | .char '\\' :: .char 'u' :: rest => .error (.flaw .codeEscape ('u' :: rest))
  | .char '\\' :: c :: rest =>
    match shortEscape? c with
    | none => .error (.flaw .escape ('\\' :: c :: rest))
    | some e => do
      let (written, rest) ← readWritten opening rest
      return (.plain e :: written, rest)
  | c :: rest =>
    if c.toNat < 0x20 then .error (.flaw .control (c :: rest))
    else do
      let (written, rest) ← readWritten opening rest
      return (.plain c :: written, rest)

/-- A text after its opening quote. -/
def readText (opening rest : Text) : Except Stop (Text × Text) := do
  let (written, rest) ← readWritten opening rest
  return (joinWritten written, rest)

/-! ## Numbers -/

/-- A decimal digit of the ASCII set. -/
def isDigit : CodePoint → Bool
  | .char c => c.isDigit
  | .half _ => false

/-- The number with the given decimal digits. -/
def digitsValue (digits : Text) : Nat :=
  digits.foldl (fun n c => n * 10 + (c.toNat - '0'.toNat)) 0

/-- The digits at the front, with the rest. -/
def spanDigits (cs : Text) : Text × Text :=
  (cs.takeWhile isDigit, cs.dropWhile isDigit)

/-- A whole part : a zero, or digits that start with another one. -/
def readWhole? : Text → Option (Text × Text)
  | .char '0' :: rest => some ("0", rest)
  | cs => match spanDigits cs with
    | ([], _) => none
    | found => some found

/-- The digits after a point, none if there are no such digits. -/
def readFraction : Text → Text × Text
  | .char '.' :: rest => match spanDigits rest with
    | ([], _) => ([], .char '.' :: rest)
    | found => found
  | cs => ([], cs)

/-- The power of ten after the letter `e`, if there is one. -/
def readPower (cs : Text) : Option Int × Text :=
  match cs with
  | e :: rest =>
    if e == 'e' || e == 'E' then
      let (negative, digits) := match rest with
        | .char '-' :: r => (true, r)
        | .char '+' :: r => (false, r)
        | r => (false, r)
      match spanDigits digits with
      | ([], _) => (none, cs)
      | (ds, r) =>
        (some (if negative then -(digitsValue ds : Int) else (digitsValue ds : Int)), r)
    else (none, cs)
  | [] => (none, [])

/-- A number : an integer unless a fraction or a power follows the whole part. -/
def readNumber (cs : Text) : Except Stop (Json × Text) :=
  let (negative, unsigned) := match cs with
    | .char '-' :: r => (true, r)
    | r => (false, r)
  match readWhole? unsigned with
  | none => .error (.flaw .value cs)
  | some (whole, rest) =>
    let (fraction, rest) := readFraction rest
    let (power, rest) := readPower rest
    if fraction.isEmpty && power.isNone then
      if maxDigits < whole.length then .error (.tooManyDigits whole.length)
      else
        let n : Int := digitsValue whole
        .ok (.int (if negative then -n else n), rest)
    else
      .ok (.float (Binary64.ofDecimal negative (digitsValue (whole ++ fraction))
        (power.getD 0 - fraction.length)), rest)

/-! ## Values -/

/-- The words that are values. -/
def words : List (String × Json) :=
  [("null", null), ("true", bool true), ("false", bool false), ("NaN", float .nan),
    ("Infinity", float (.infinite false)), ("-Infinity", float (.infinite true))]

/-- A word at the front, with its value and the rest. -/
def readWord? (cs : Text) : Option (Json × Text) :=
  words.findSome? fun (word, v) =>
    let word : Text := word
    if word.isPrefixOf cs then some (v, cs.drop word.length) else none

/-- A value that is neither an array nor an object. -/
def readScalar (cs : Text) : Except Stop (Json × Text) :=
  match cs with
  | .char '"' :: rest => do
    let (s, rest) ← readText cs rest
    return (.str s, rest)
  | cs => (readWord? cs).elim (readNumber cs) .ok

/-- What reads a value at the front. -/
abbrev ValueReader := Text → Except Stop (Json × Text)

/-- The items of an array that is not empty, up to its end. The fuel bounds their number. -/
def readItems (readItem : ValueReader) : Nat → Text → Except Stop (List Json × Text)
  | 0, cs => .error (.flaw .value cs)
  | fuel + 1, cs => do
    let (v, rest) ← readItem cs
    match skipSpace rest with
    | .char ']' :: rest => return ([v], rest)
    | .char ',' :: rest =>
      let (items, rest) ← readItems readItem fuel (skipSpace rest)
      return (v :: items, rest)
    | rest => .error (.flaw .comma rest)

/-- An array after its opening bracket, in a text of `size` code points, which are more than the
items. -/
def readArray (size : Nat) (readItem : ValueReader) (cs : Text) :
    Except Stop (Json × Text) :=
  match skipSpace cs with
  | .char ']' :: rest => .ok (.arr [], rest)
  | rest => do
    let (items, rest) ← readItems readItem size rest
    return (.arr items, rest)

/-- The members of an object that is not empty, up to its end. The fuel bounds their number. -/
def readMembers (readItem : ValueReader) :
    Nat → Text → Except Stop (List (Text × Json) × Text)
  | 0, cs => .error (.flaw .memberName cs)
  | fuel + 1, cs =>
    match cs with
    | .char '"' :: rest => do
      let (name, rest) ← readText cs rest
      match skipSpace rest with
      | .char ':' :: rest =>
        let (v, rest) ← readItem (skipSpace rest)
        match skipSpace rest with
        | .char '\x7d' :: rest => return ([(name, v)], rest)
        | .char ',' :: rest =>
          let (members, rest) ← readMembers readItem fuel (skipSpace rest)
          return ((name, v) :: members, rest)
        | rest => .error (.flaw .comma rest)
      | rest => .error (.flaw .colon rest)
    | cs => .error (.flaw .memberName cs)

/-- An object after its opening brace, in a text of `size` code points, which are more than the
members. -/
def readObject (size : Nat) (readItem : ValueReader) (cs : Text) :
    Except Stop (Json × Text) :=
  match skipSpace cs with
  | .char '\x7d' :: rest => .ok (.obj [], rest)
  | rest => do
    let (members, rest) ← readMembers readItem size rest
    return (ofMembers members, rest)

/-- The value at the front, in a text of `size` code points. Arrays and objects are nested in it at
most as deep as given. -/
def readValue (size : Nat) : Nat → ValueReader
  | 0, .char '[' :: _ => .error .tooDeep
  | 0, .char '\x7b' :: _ => .error .tooDeep
  | depth + 1, .char '[' :: rest => readArray size (readValue size depth) rest
  | depth + 1, .char '\x7b' :: rest => readObject size (readValue size depth) rest
  | _, cs => readScalar cs

/-- The one value of a text, with nothing but white space around it. -/
def readChars (depth : Nat) (cs : Text) : Except Stop Json :=
  match cs with
  | .char '\ufeff' :: _ => .error (.flaw .byteOrderMark cs)
  | _ => do
    let (v, rest) ← readValue cs.length depth (skipSpace cs)
    match skipSpace rest with
    | [] => return v
    | rest => .error (.flaw .extraData rest)

/-- The value that a text stands for, with arrays and objects nested at most `depth` deep. -/
def readWithin (depth : Nat) (text : Text) : Except ReadError Json :=
  (readChars depth text).mapError (Stop.error text)

/-- The value that a text stands for. -/
def read (text : Text) : Except ReadError Json :=
  readWithin maxDepth text

end AutomatonLab.Json
