import AutomatonLab.Automaton.Builder
import AutomatonLab.Automaton.Definition
import AutomatonLab.Catalog

/-!
# Where an automaton comes from

An automaton is taken from the catalog, read from a definition, or listed state by state and
transition by transition. A listed automaton need not be well-formed : only its formalism and its
labels are looked at.
-/

namespace AutomatonLab

/-- Where an automaton comes from : the catalog, a definition, or lists of which
nothing is demanded. -/
inductive AutomatonSource where
  | catalog (name : Text)
  | definition (data : Json)
  | listed (formalism : Json) (states : List State)
      (transitions : List (Text × Text × LabelSource))

namespace AutomatonSource

/-- The automaton with one more transition, whose ends are not looked at. -/
def listTransition (a : Automaton) (source target : Text) (label : LabelSource) :
    Except Fault Automaton :=
  match label.resolve a.formalism with
  | .ok l => .ok { a with transitions := a.transitions ++ [⟨source, target, l⟩] }
  | .error e => .error (.badLabel e)

/-- The automaton of a source, with what is logged when it is read. -/
def build : AutomatonSource → Outcome Automaton
  | catalog name => .ofExcept ((Catalog.load name).map Example.automaton)
  | definition data => Automaton.ofJson data
  | listed formalism states transitions => .ofExcept do
    let a ← Automaton.new formalism
    transitions.foldlM (fun a (source, target, label) => listTransition a source target label)
      { a with states := states }

end AutomatonSource

end AutomatonLab
