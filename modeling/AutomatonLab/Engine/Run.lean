import AutomatonLab.Engine.Control

/-!
# Whole runs

`Run.history` runs an automaton on an input from the start to the end, or to the limit of its
transitions, without timers and without anybody watching. `Run.accepts` asks for the verdict of a
run with the usual limit.
-/

namespace AutomatonLab.Run

/-- The allowance that a run with a limit of `n` transitions never uses up. -/
def allowanceFor (n : Int) : Nat :=
  n.toNat + 2

/-- The events of a run and its status at the end. Only a run without a limit may use up the
allowance. -/
def history (allowance : Nat) (a : Automaton) (input : Text) (maxSteps : Option Int) :
    Outcome (List Event × Status) :=
  match Desk.start a input Engine.defaultDelay false maxSteps none 0 () with
  | .error fault => .fail fault
  | .ok d =>
    let allowance := maxSteps.elim allowance allowanceFor
    let (result, d) := Control.exec (Control.run (fun _ => pure ()) allowance) d
    ⟨result.map fun _ => (d.engine.history.toList, d.engine.status), d.entries⟩

/-- The automaton accepts the input within the usual limit. -/
def accepts (a : Automaton) (input : Text) : Outcome Bool := do
  let (_, status) ← history 0 a input (some Engine.defaultMaxSteps)
  return status == .accepted

end AutomatonLab.Run
