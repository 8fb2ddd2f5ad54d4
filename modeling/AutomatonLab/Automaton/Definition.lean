import AutomatonLab.Fault
import AutomatonLab.Json.Writer

/-!
# Definitions of automata

An automaton is saved as a JSON object with the members `formalism`, `states` and `transitions`.
`Automaton.ofJson` reads such an object : a transition whose label cannot be read is left out with a
warning, and any other flaw is a fault. Names of states are texts, but the ends of a transition may
be any values until they are looked up among the names, which is done last (`Draft.resolve`).
`Automaton.read` and `Automaton.write` are the same on texts.
-/

namespace AutomatonLab

/-- A transition whose ends have not been looked up yet. -/
structure Draft where
  source : Json
  target : Json
  label : Label

namespace Definition

/-- The state that an item of `states` declares. -/
def readState (item : Json) : Except Defect State :=
  match item.member? "name" with
  | none => .error (.namelessState item.display)
  | some (.str name) =>
    .ok ⟨name, ((item.member? "initial").map Json.truthy).getD false,
      ((item.member? "final").map Json.truthy).getD false⟩
  | some name => .error (.badStateName name.display)

/-- The label of an item of `transitions`, or why there is none. -/
def readLabel (formalism : Formalism) (item : Json) : Except Text Label :=
  match item.member? "label" with
  | none => .error (Text.quoted "label")
  | some v =>
    match (LabelSource.value v).resolve formalism with
    | .ok l => .ok l
    | .error e => .error e.message

/-- The warning about an item that is left out. -/
def skipped (item : Json) (cause : Text) : LogEntry :=
  ⟨.warning, "Ignorando transição malformada " ++ item.text ++ ": " ++ cause⟩

/-- The transitions of the items that have a readable label, with the warnings about the others. -/
def readTransitions (formalism : Formalism) : List Json → Except Defect (List Draft) × List LogEntry
  | [] => (.ok [], [])
  | item :: rest =>
    match item.member? "from", item.member? "to" with
    | some source, some target =>
      let (drafts, warnings) := readTransitions formalism rest
      match readLabel formalism item with
      | .ok l => (drafts.map (⟨source, target, l⟩ :: ·), warnings)
      | .error cause => (drafts, skipped item cause :: warnings)
    | _, _ => (.error (.looseTransition item.display), [])

/-- The name that an end of a transition gives. An array or an object cannot be looked up. -/
def lookUp (names : List Text) (missing : Text → Defect) (v : Json) : Except Fault Text :=
  if v.isContainer then .error .unusableValue
  else match v with
    | .str name => if name ∈ names then .ok name else .error (.malformed (missing name))
    | v => .error (.malformed (missing v.text))

end Definition

/-- The transition between two declared states; the source is looked up first. -/
def Draft.resolve (names : List Text) (d : Draft) : Except Fault Transition := do
  let text := Transition.textOf d.source.text d.target.text d.label
  let source ← Definition.lookUp names (.missingSource text) d.source
  let target ← Definition.lookUp names (.missingTarget text) d.target
  return ⟨source, target, d.label⟩

namespace Automaton

/-- The formalism that a definition names, finite automata if it names none. -/
def formalismOf (data : Json) : Except Defect Formalism :=
  let code := (data.member? "formalism").getD (.str Formalism.fa.code)
  match code.str?.bind Formalism.ofCode? with
  | some f => .ok f
  | none => .error (.unknownFormalism code.display)

/-- The items of a member of a definition, none if it has no such member. -/
def itemsOf (data : Json) (name : Text) : Except Fault (List Json) :=
  match ((data.member? name).getD (.arr [])).elements? with
  | some items => .ok items
  | none => .error .unusableValue

/-- The checks that follow once all items have been read. -/
def ofDrafts (formalism : Formalism) (states : List State) (drafts : List Draft) :
    Except Fault Automaton := do
  (checkNames states).mapError .malformed
  let transitions ← drafts.mapM (Draft.resolve (states.map State.name))
  (checkInitial states).mapError .malformed
  return ⟨formalism, states, transitions⟩

/-- The automaton that a definition describes. -/
def ofJson (data : Json) : Outcome Automaton :=
  match data with
  | .obj _ => do
    let formalism ← .ofExcept ((formalismOf data).mapError .malformed)
    let stateItems ← .ofExcept (itemsOf data "states")
    let states ← .ofExcept ((stateItems.mapM Definition.readState).mapError .malformed)
    let items ← .ofExcept (itemsOf data "transitions")
    let (drafts, warnings) := Definition.readTransitions formalism items
    Outcome.note warnings
    let drafts ← .ofExcept (drafts.mapError .malformed)
    .ofExcept (ofDrafts formalism states drafts)
  | _ => .fail (.malformed .notAnObject)

/-- The automaton that a text describes. -/
def read (text : Text) : Outcome Automaton :=
  match Json.read text with
  | .ok data => ofJson data
  | .error e => .fail (.notJson e)

/-- The item of a definition that declares a state. -/
def stateJson (s : State) : Json :=
  .obj [("name", .str s.name), ("initial", .bool s.initial), ("final", .bool s.final)]

/-- The item of a definition that declares a transition, with its label in writing. -/
def transitionJson (t : Transition) : Json :=
  .obj [("from", .str t.source), ("to", .str t.target), ("label", .str t.label.text)]

/-- The members of the definition of an automaton. -/
def members (a : Automaton) : List (Text × Json) :=
  [("formalism", .str a.formalism.code), ("states", .arr (a.states.map stateJson)),
    ("transitions", .arr (a.transitions.map transitionJson))]

/-- The definition of an automaton. -/
def toJson (a : Automaton) : Json := .obj a.members

/-- The text of the definition of an automaton. -/
def write (a : Automaton) : Text := a.toJson.write

/-- Reading the text of the automaton gives the same transitions. -/
def isStable (a : Automaton) : Outcome Bool := do
  let b ← read a.write
  return b.transitions == a.transitions

end Automaton

end AutomatonLab
