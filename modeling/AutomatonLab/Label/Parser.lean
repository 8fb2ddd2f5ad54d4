import AutomatonLab.Json.Display
import AutomatonLab.Label.Basic
import AutomatonLab.Text.Blank
import AutomatonLab.Text.UpperCase

/-!
# Reading labels

`Label.parse` reads the written form of a label in a formalism : a symbol for a finite automaton,
`input,pop→push` for a pushdown automaton, `read→write,direction` for a Turing machine. The two
characters `->` may stand for the arrow, blanks around a part do not count, and an empty part or `&`
of a pushdown label is `Label.epsilon`. What can be wrong with a text is a `LabelError`.
-/

namespace AutomatonLab

/-- Why there is no label. -/
inductive LabelError where
  /-- A finite automaton reads one symbol, and the text is empty. -/
  | emptySymbol
  | noArrow (formalism : Formalism) (text : Text)
  /-- Not exactly one comma before the arrow of a pushdown label. -/
  | notTwoParts (text : Text)
  /-- No comma after the arrow of a Turing label. -/
  | noDirection (text : Text)
  | emptyPart (text : Text)
  | unknownDirection
  /-- A value that is neither a text nor a label of the formalism; `shown` is its display. -/
  | foreign (shown : Text) (formalism : Formalism)
  /-- No formalism with labels; `shown` is the display of what was given for one. -/
  | unknownFormalism (shown : Text)
  deriving DecidableEq, Repr

/-- The message about a formalism that is none of the three. -/
def unknownFormalismMessage (shown : Text) : Text :=
  "Formalismo desconhecido: " ++ shown

/-- What is said of a label that cannot be read. -/
def LabelError.message : LabelError → Text
  | emptySymbol => "Rótulo de AF vazio."
  | noArrow formalism text =>
    "Rótulo de " ++ (if formalism = .tm then "MT" else "PDA") ++ " sem '→': " ++ Text.quoted text
  | notTwoParts text =>
    "Rótulo de PDA deve ser 'entrada,desempilha→empilha': " ++ Text.quoted text
  | noDirection text => "Rótulo de MT sem direção: " ++ Text.quoted text
  | emptyPart text => "Rótulo de MT com símbolo vazio: " ++ Text.quoted text
  | unknownDirection => "Direção deve ser 'L', 'R' ou 'S'."
  | foreign shown formalism =>
    "Rótulo " ++ shown ++ " não pertence ao formalismo '" ++ formalism.code ++ "'."
  | unknownFormalism shown => unknownFormalismMessage shown

namespace Label

/-- The text with every `->` replaced by the arrow. -/
def arrowed : Text → Text
  | [] => []
  | .char '-' :: .char '>' :: rest => arrow :: arrowed rest
  | c :: rest => c :: arrowed rest

/-- What stands before the first `c`, and what stands after it. -/
def cutFirst (c : CodePoint) (cs : Text) : Text × Text :=
  (cs.takeWhile (· != c), (cs.dropWhile (· != c)).tail)

/-- What stands before the last `c`, and what stands after it. -/
def cutLast (c : CodePoint) (cs : Text) : Text × Text :=
  let (after, before) := cutFirst c cs.reverse
  (before.reverse, after.reverse)

/-- A part of a label without the blanks around it. -/
def part (cs : Text) : Text :=
  Text.stripEnds Text.isBlank cs

/-- A part of a pushdown label, where several texts stand for no symbol. -/
def optionalPart (cs : Text) : Text :=
  let p := part cs
  if p ∈ epsilonAliases then epsilon else p

/-- The label of a finite automaton : the text is the symbol. -/
def parseFa (text : Text) : Except LabelError Label :=
  if text.isEmpty then .error .emptySymbol else .ok (.fa text)

/-- The label of a pushdown automaton, `input,pop→push`. -/
def parsePda (text : Text) : Except LabelError Label :=
  let cs := arrowed text
  if arrow ∈ cs then
    let (reading, push) := cutFirst arrow cs
    match reading.splitOn (.char ',') with
    | [input, pop] => .ok (.pda (optionalPart input) (optionalPart pop) (optionalPart push))
    | _ => .error (.notTwoParts cs)
  else .error (.noArrow .pda cs)

/-- The label of a Turing machine, `read→write,direction`. -/
def parseTm (text : Text) : Except LabelError Label :=
  let cs := arrowed text
  if arrow ∈ cs then
    let (read, rest) := cutFirst arrow cs
    if .char ',' ∈ rest then
      let (write, direction) := cutLast ',' rest
      if (part read).isEmpty ∨ (part write).isEmpty then .error (.emptyPart cs)
      else match directions.lookup (Text.upperCase (part direction)) with
        | some d => .ok (.tm (part read) (part write) d)
        | none => .error .unknownDirection
    else .error (.noDirection cs)
  else .error (.noArrow .tm cs)

/-- The label that a text stands for in a formalism. -/
def parse : Formalism → Text → Except LabelError Label
  | .fa, text => parseFa text
  | .pda, text => parsePda text
  | .tm, text => parseTm text
  | .other code, _ => .error (.unknownFormalism (Text.quoted code))

end Label

/-- What may be given for a label : a text, or another value, which is no label in any formalism,
or a label, which need not be read. -/
inductive LabelSource where
  | value (v : Json)
  | label (l : Label)

namespace LabelSource

/-- The display of what was given. -/
def display : LabelSource → Text
  | value v => v.display
  | label l => l.display

/-- The label that was given, which must belong to the formalism. -/
def resolve (formalism : Formalism) : LabelSource → Except LabelError Label
  | value (.str text) => Label.parse formalism text
  | source =>
    match formalism with
    | .other code => .error (.unknownFormalism (Text.quoted code))
    | _ =>
      match source with
      | label l => if l.formalism = formalism then .ok l else .error (.foreign l.display formalism)
      | value v => .error (.foreign v.display formalism)

end LabelSource

end AutomatonLab
