import AutomatonLab.Automaton.Basic
import AutomatonLab.Label.Parser

/-!
# Well-formed automata

`Automaton.validate` accepts an automaton whose state names differ, whose transitions join declared
states, and which has exactly one initial state; otherwise it gives the first `Defect` in that
order. The other defects belong to definitions that are being read and to transitions that are
being added.
-/

namespace AutomatonLab

/-- Why there is no well-formed automaton. Fields called `shown` hold the display of a value. -/
inductive Defect where
  | notAnObject
  | unknownFormalism (shown : Text)
  | namelessState (shown : Text)
  | badStateName (shown : Text)
  | looseTransition (shown : Text)
  | repeatedState (name : Text)
  | missingSource (transition name : Text)
  | missingTarget (transition name : Text)
  | initialStates (count : Nat)
  /-- A transition is to be added between states that are not both declared. -/
  | badEndpoint
  deriving DecidableEq, Repr

/-- What is said of a defect. -/
def Defect.message : Defect → Text
  | notAnObject => "A definição do autômato deve ser um objeto JSON."
  | unknownFormalism shown => unknownFormalismMessage shown
  | namelessState shown => "Estado sem nome: " ++ shown
  | badStateName shown => "Nome de estado inválido: " ++ shown
  | looseTransition shown => "Transição sem origem ou destino: " ++ shown
  | repeatedState name => "O nome de estado '" ++ name ++ "' aparece mais de uma vez."
  | missingSource transition name =>
    "Transição " ++ transition ++ " parte de estado inexistente '" ++ name ++ "'."
  | missingTarget transition name =>
    "Transição " ++ transition ++ " chega em estado inexistente '" ++ name ++ "'."
  | initialStates count =>
    "O autômato deve ter exatamente um estado inicial (encontrados: " ++ toString count ++ ")."
  | badEndpoint => "Estado de origem ou destino inválido."

/-- The first name of a list that occurs earlier, in the list or in `seen`. -/
def firstRepeated? (seen : List Text) : List Text → Option Text
  | [] => none
  | name :: rest =>
    if name ∈ seen then some name else firstRepeated? (name :: seen) rest

/-- The names of the states differ. -/
def checkNames (states : List State) : Except Defect Unit :=
  match firstRepeated? [] (states.map State.name) with
  | some name => .error (.repeatedState name)
  | none => .ok ()

/-- A transition joins declared states; its source is looked at first. -/
def Transition.checkEndpoints (names : List Text) (t : Transition) : Except Defect Unit :=
  if t.source ∉ names then .error (.missingSource t.text t.source)
  else if t.target ∉ names then .error (.missingTarget t.text t.target)
  else .ok ()

/-- Exactly one state is initial. -/
def checkInitial (states : List State) : Except Defect Unit :=
  let count := states.countP State.initial
  if count = 1 then .ok () else .error (.initialStates count)

/-- The automaton is well-formed. -/
def Automaton.validate (a : Automaton) : Except Defect Unit := do
  checkNames a.states
  a.transitions.forM (Transition.checkEndpoints (a.states.map State.name))
  checkInitial a.states

end AutomatonLab
