import AutomatonLab.Choice
import AutomatonLab.Memory.Tape

/-!
# Configurations

A `Configuration` is where a run stands : the state, the position in the input, the stack, and the
tape with its head. A `Snapshot` is what is shown of it. The state is absent only if the automaton
has no initial state. A position in the input may be negative, and then counts from the end; there
is nothing to read before the first symbol (`Configuration.symbol?`).
-/

namespace AutomatonLab

/-- Where a run stands, with the input it is on. -/
structure Configuration where
  input : Text
  state : Option Text
  cursor : Int
  head : Int
  stack : Stack
  tape : Tape
  deriving DecidableEq, Repr, Inhabited

/-- What an event shows of a configuration. -/
structure Snapshot where
  state : Option Text
  cursor : Int
  head : Int
  stack : List Text
  tape : List Text
  deriving DecidableEq, Repr, Inhabited

namespace Snapshot

/-- Several texts as a tuple : a single one is followed by a comma. -/
def displayTuple : List Text → Text
  | [item] => "(" ++ Text.quoted item ++ ",)"
  | items => "(" ++ Text.quotedItems items ++ ")"

/-- A state in the middle of a message. -/
def displayState : Option Text → Text
  | some name => Text.quoted name
  | none => "None"

/-- The snapshot in the middle of a message. -/
def display (s : Snapshot) : Text :=
  "Snapshot(state=" ++ displayState s.state ++ ", cursor=" ++ toString s.cursor
    ++ ", head=" ++ toString s.head ++ ", stack=" ++ displayTuple s.stack
    ++ ", tape=" ++ displayTuple s.tape ++ ")"

end Snapshot

namespace Configuration

/-- The configuration at the start of a run : only a Turing machine has its input on the tape. -/
def start (a : Automaton) (input : Text) : Configuration where
  input := input
  state := a.start?
  cursor := 0
  head := 0
  stack := .empty
  tape := .ofInput (if a.formalism = .tm then input else "") Tape.defaultBlank

/-- What is left of the input, all of it if the position lies before it. -/
def remaining (c : Configuration) : Text :=
  let word := c.input
  match c.cursor with
  | .ofNat n => word.drop n
  | .negSucc n => word.drop (word.length - (n + 1))

/-- The input is used up. -/
def atEnd (c : Configuration) : Bool :=
  (c.input.length : Int) ≤ c.cursor

/-- The position does not lie before the first symbol of the input. -/
def isInside (c : Configuration) : Bool :=
  -(c.input.length : Int) ≤ c.cursor

/-- The symbol at the position in the input, none at the end. -/
def symbol? (c : Configuration) : Except Fault (Option Text) :=
  if c.isInside then .ok (c.remaining.head?.map fun s => [s]) else .error .beforeInput

/-- The symbol under the head. -/
def scanned (c : Configuration) : Text :=
  c.tape.read c.head

/-- What is shown of a configuration. -/
def snapshot (c : Configuration) : Snapshot :=
  ⟨c.state, c.cursor, c.head, c.stack.items, c.tape.cells⟩

/-- The state on its own in a message. -/
def stateText (c : Configuration) : Text :=
  c.state.getD "None"

/-- The two show the same, on the same input. -/
def agrees (c d : Configuration) : Bool :=
  c.input == d.input && c.snapshot == d.snapshot

/-- The configuration in the middle of a message. -/
def display (c : Configuration) : Text :=
  "Configuracao(" ++ c.snapshot.display ++ ")"

/-- What a transition has to read in this configuration. -/
def visible? (formalism : Formalism) (c : Configuration) : Except Fault (Option Text) :=
  match formalism with
  | .fa => c.symbol?
  | .pda => c.symbol?
  | .tm => .ok (some c.scanned)
  | .other code => .error (.unknownFormalism (Text.quoted code))

/-- The transitions that apply in this configuration. None does without a state. -/
def applicable (a : Automaton) (c : Configuration) : Except Fault (List Transition) := do
  let symbol ← c.visible? a.formalism
  match c.state with
  | none => return []
  | some state => Choice.applicable a.formalism a.transitions state symbol c.stack.top?

/-- The configuration after a transition. -/
def apply (c : Configuration) (t : Transition) : Configuration :=
  match t.label with
  | .fa _ => { c with state := some t.target, cursor := c.cursor + 1 }
  | .pda input pop push =>
    let popped := if pop = Label.epsilon then c.stack else c.stack.pop
    { c with
      state := some t.target
      cursor := if input = Label.epsilon then c.cursor else c.cursor + 1
      stack := if push = Label.epsilon then popped else popped.push push }
  | .tm _ write direction =>
    { c with
      state := some t.target
      tape := c.tape.write c.head write
      head := Tape.move c.head direction }

end Configuration

end AutomatonLab
