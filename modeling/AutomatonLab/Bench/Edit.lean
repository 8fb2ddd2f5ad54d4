import AutomatonLab.Automaton.Source
import AutomatonLab.Engine.Run
import AutomatonLab.Reply

/-!
# Commands on an automaton

An `Edit` is one command on an automaton that somebody works on : it adds to the automaton, with or
without the usual checks, or asks something about it. `Edit.perform` gives the `Reply` and the
automaton afterwards, which a refused addition leaves as it was.
-/

namespace AutomatonLab

/-- One change of an automaton : by the methods that check it, or past them in its lists. -/
inductive Edit where
  | addState (s : State)
  | addTransition (source target : Text) (label : LabelSource)
  | listState (s : State)
  | listTransition (source target : Text) (label : LabelSource)
  | setFormalism (code : Text)
  | getState (name : Text)
  | isFinal (name : Text)
  | startState
  | finalStates
  | transitionsFrom (name : Text)
  | validate
  | describe
  | write
  | reload
  | simulate (input : Text)

namespace Edit

/-- A question, which leaves the automaton as it is. -/
def ask (a : Automaton) (reply : Reply) : Outcome Reply × Automaton :=
  (pure reply, a)

/-- A change that may be refused. -/
def change (a : Automaton) (result : Except Fault (Reply × Automaton)) :
    Outcome Reply × Automaton :=
  match result with
  | .ok (reply, b) => (pure reply, b)
  | .error fault => (.fail fault, a)

/-- Carries out a change. One that is refused leaves the automaton as it was. -/
def perform (a : Automaton) : Edit → Outcome Reply × Automaton
  | addState s => change a ((a.addState s).map fun b => (.state s, b))
  | addTransition source target label =>
    change a ((a.addTransition source target label).map fun (t, b) => (.added t, b))
  | listState s => (pure .done, { a with states := a.states ++ [s] })
  | listTransition source target label =>
    change a ((AutomatonSource.listTransition a source target label).map fun b => (.done, b))
  | setFormalism code => (pure .done, { a with formalism := .ofCode code })
  | getState name => ask a (.state (a.state? name))
  | isFinal name => ask a (.flag (a.isFinal name))
  | startState => ask a (.text a.start?)
  | finalStates => ask a (.texts a.finalStates)
  | transitionsFrom name => ask a (.transitions (a.transitionsFrom name))
  | validate => (.ofExcept ((a.validate.mapError .malformed).map fun _ => .done), a)
  | describe => ask a (.document a.toJson)
  | write => ask a (.text (some a.write))
  | reload => (do return .document (← Automaton.read a.write).toJson, a)
  | simulate input => (do return .flag (← Run.accepts a input), a)

end Edit

end AutomatonLab
