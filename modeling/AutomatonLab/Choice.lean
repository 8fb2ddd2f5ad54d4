import AutomatonLab.Fault

/-!
# Which transitions apply, and which one is taken

The applicable transitions of a state keep their order of declaration; for a pushdown automaton the
ones that read a symbol come before the ones that read none. The first one is taken, and no other
is tried. An absent symbol is the end of the input, and an absent top an empty stack.

All transitions from the state are looked at, and one with a label of another formalism is a fault
(`Choice.applicable`). The lists for the three formalisms are those of labels that can be looked at.
-/

namespace AutomatonLab.Choice

/-- The transitions of a finite automaton that read `symbol`. -/
def applicableFa (ts : List Transition) (state : Text) (symbol : Option Text) :
    List Transition :=
  ts.filter fun t => t.source == state &&
    match t.label with
    | .fa s => some s == symbol
    | _ => false

/-- A transition of a pushdown automaton from `state` that pops nothing or the top, and reads
`input`. -/
def matchesPda (state : Text) (top : Option Text) (input : Option Text) (t : Transition) :
    Bool :=
  t.source == state &&
    match t.label with
    | .pda i pop _ => (pop == Label.epsilon || some pop == top) && some i == input
    | _ => false

/-- A transition that reads `symbol`, which is not the text for no symbol. -/
def consumesPda (state : Text) (symbol top : Option Text) (t : Transition) : Bool :=
  symbol != some Label.epsilon && matchesPda state top symbol t

/-- A transition that reads no symbol. -/
def silentPda (state : Text) (top : Option Text) (t : Transition) : Bool :=
  matchesPda state top (some Label.epsilon) t

/-- The transitions of a pushdown automaton : those that read `symbol`, then those that read
none. -/
def applicablePda (ts : List Transition) (state : Text) (symbol top : Option Text) :
    List Transition :=
  ts.filter (consumesPda state symbol top) ++ ts.filter (silentPda state top)

/-- The transitions of a Turing machine that read `symbol`. -/
def applicableTm (ts : List Transition) (state : Text) (symbol : Option Text) :
    List Transition :=
  ts.filter fun t => t.source == state &&
    match t.label with
    | .tm read _ _ => some read == symbol
    | _ => false

/-- Every transition from `state` has a label of the formalism, so that it can be looked at. -/
def readable (formalism : Formalism) (ts : List Transition) (state : Text) : Bool :=
  ts.all fun t => t.source != state || t.label.formalism == formalism

/-- The transitions of any formalism, if their labels can be looked at; only a pushdown automaton
looks at the top. -/
def applicable? (formalism : Formalism) (ts : List Transition) (state : Text)
    (symbol top : Option Text) : Option (List Transition) :=
  match formalism with
  | .fa => some (applicableFa ts state symbol)
  | .pda => some (applicablePda ts state symbol top)
  | .tm => some (applicableTm ts state symbol)
  | .other _ => none

/-- The transitions that apply, in the order in which they are considered. All transitions from the
state are looked at, and each must have a label of the formalism. -/
def applicable (formalism : Formalism) (ts : List Transition) (state : Text)
    (symbol top : Option Text) : Except Fault (List Transition) :=
  if readable formalism ts state then .ok ((applicable? formalism ts state symbol top).getD [])
  else .error .foreignLabel

/-- Where all labels can be looked at, the list is the plain choice. -/
theorem applicable_of_readable {formalism : Formalism} {ts : List Transition} {state : Text}
    (h : readable formalism ts state = true) (symbol top : Option Text) :
    applicable formalism ts state symbol top =
      .ok ((applicable? formalism ts state symbol top).getD []) :=
  if_pos h

end AutomatonLab.Choice
