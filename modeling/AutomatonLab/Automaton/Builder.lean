import AutomatonLab.Fault

/-!
# Building automata

States and transitions are added one at a time. `Automaton.addState` refuses a name in use, and
`Automaton.addTransition` refuses undeclared endpoints and what is no label of the formalism; a
refused addition leaves no trace.
-/

namespace AutomatonLab.Automaton

/-- The automaton with one more state, at the end. -/
def addState (a : Automaton) (s : State) : Except Fault Automaton :=
  if (a.state? s.name).isSome then .error (.nameInUse s.name)
  else .ok { a with states := a.states ++ [s] }

/-- The automaton with one more transition, at the end. -/
def addTransition (a : Automaton) (source target : Text) (label : LabelSource) :
    Except Fault (Transition × Automaton) :=
  if (a.state? source).isNone ∨ (a.state? target).isNone then .error (.malformed .badEndpoint)
  else match label.resolve a.formalism with
    | .error e => .error (.badLabel e)
    | .ok l =>
      let t : Transition := ⟨source, target, l⟩
      .ok (t, { a with transitions := a.transitions ++ [t] })

/-- The empty automaton of the formalism with the given code, which must be one of the three. -/
def new (code : Json) : Except Fault Automaton :=
  match code.str?.bind Formalism.ofCode? with
  | some f => .ok (empty f)
  | none => .error (.unknownFormalism code.display)

end AutomatonLab.Automaton

namespace AutomatonLab.LabelSource

/-- The label that was given, in the formalism with the given code. An array or an object cannot be
looked up among the codes. -/
def resolveIn (code : Json) (source : LabelSource) : Except Fault Label :=
  if code.isContainer then .error .unusableValue
  else match code.str?.bind Formalism.ofCode? with
    | some f => (source.resolve f).mapError .badLabel
    | none => .error (.unknownFormalism code.display)

end AutomatonLab.LabelSource
