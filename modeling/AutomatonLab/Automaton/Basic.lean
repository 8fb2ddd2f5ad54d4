import AutomatonLab.Label.Basic

/-!
# Automata

An `Automaton` lists its states and its transitions in the order they were declared; the order of
the transitions decides which of several applicable ones is taken. Nothing is demanded of the lists
here : `Automaton.validate` says what is.
-/

namespace AutomatonLab

/-- A state with its two marks. -/
structure State where
  name : Text
  initial : Bool
  final : Bool
  deriving DecidableEq, Repr, Inhabited

/-- An edge between two states, given by their names. -/
structure Transition where
  source : Text
  target : Text
  label : Label
  deriving DecidableEq, Repr, Inhabited

/-- The text of an edge between `source` and `target`. -/
def Transition.textOf (source target : Text) (label : Label) : Text :=
  source ++ " --" ++ label.text ++ "--> " ++ target

/-- The transition in a message. -/
def Transition.text (t : Transition) : Text :=
  textOf t.source t.target t.label

/-- A formalism, the states in the order of declaration, and the transitions in the order in which
they are considered. -/
structure Automaton where
  formalism : Formalism
  states : List State
  transitions : List Transition
  deriving DecidableEq, Repr, Inhabited

namespace Automaton

/-- The automaton without states. -/
def empty (formalism : Formalism) : Automaton := ⟨formalism, [], []⟩

/-- The first state with the given name. -/
def state? (a : Automaton) (name : Text) : Option State :=
  a.states.find? fun s => s.name == name

/-- The first state with the given name is final. -/
def isFinal (a : Automaton) (name : Text) : Bool :=
  (a.state? name).any State.final

/-- The name of the first initial state. -/
def start? (a : Automaton) : Option Text :=
  (a.states.find? State.initial).map State.name

/-- The names of the final states, in order. -/
def finalStates (a : Automaton) : List Text :=
  (a.states.filter State.final).map State.name

/-- The transitions that leave a state, in order. -/
def transitionsFrom (a : Automaton) (name : Text) : List Transition :=
  a.transitions.filter fun t => t.source == name

end Automaton

end AutomatonLab
