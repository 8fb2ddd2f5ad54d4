import AutomatonLab.Engine.Control
import AutomatonLab.Json.Display
import AutomatonLab.Toolkit.Entry
import AutomatonLab.Window.Diagram
import AutomatonLab.Window.MemoryStrip

/-!
# The simulator window

A `Window` is what lies outside the engine of a simulator : the texts and pictures that it shows,
the timer that ends the display of a step, the file it works on. `Window.redraw` brings all of them
in line with the engine. The input of the engine is a text, unless an opened file holds another
value for it (`ForeignInput`); such a value is shown as far as it can be, until the next run.
-/

namespace AutomatonLab

/-- A small window with a hint. One that is stuck does not go away. -/
structure Tooltip where
  geometry : Text
  text : Text
  alive : Bool
  stuck : Bool
  deriving DecidableEq, Repr

/-- A button of the window, with its hint, and the number of the tooltip that shows it. -/
structure Button where
  hint : Text
  present : Bool
  shown : Option Nat
  deriving DecidableEq, Repr

/-- A value that is no text and stands for the input of the engine. -/
structure ForeignInput where
  value : Json
  /-- The cells of the tape, if the tape was filled with such a value. -/
  cells : Option (List Json)

/-- What the windows share. -/
structure Room where
  files : FileStore
  /-- The size of every canvas, if it is known. -/
  canvasSize : Option (Int × Int)
  /-- The number of top-level windows made so far. -/
  toplevels : Nat
  /-- What the entries of the windows take. -/
  entries : EntryRule

/-- What a window shows, with what it waits for and works on. -/
structure Window where
  /-- The name of the window for the toolkit. -/
  name : Text
  title : Text
  status : Text
  statusColour : Option Text
  info : Text
  metrics : Text
  available : Text
  /-- The rows of the log with their colours, the newest first. -/
  rows : List (Text × Option Text)
  entry : Text
  file : Option Text
  highlight : Option (Text × Text)
  /-- The timer that ends the display of a step. -/
  settle : Option Nat
  places : Diagram.Places
  canvas : List (Item Float)
  memory : List (Item Int)
  tooltips : List Tooltip
  buttons : List Button
  /-- The titles and the texts of the error boxes. -/
  dialogs : List (Text × Text)
  /-- The input, if it is no text. -/
  foreign : Option ForeignInput
  room : Room

/-- The buttons of a window, from the left. -/
def Button.hints : List Text := ["Executar", "Passo", "Pausar", "Reiniciar"]

namespace Window

/-- A window that shows nothing yet. -/
def blank (name : Text) (room : Room) : Window where
  name := name
  title := ""
  status := "Pronto"
  statusColour := none
  info := ""
  metrics := ""
  available := ""
  rows := []
  entry := ""
  file := none
  highlight := none
  settle := none
  places := []
  canvas := []
  memory := []
  tooltips := []
  buttons := Button.hints.map fun hint => ⟨hint, true, none⟩
  dialogs := []
  foreign := none
  room := room

/-- The number of rows that the log keeps. -/
def logSize : Nat := 8

/-- The log with a new row. -/
def addRow (w : Window) (text : Text) (colour : Option Text) : Window :=
  { w with rows := ((text, colour) :: w.rows).take logSize }

/-- The window with tooltips that do not go away any more. -/
def jam (w : Window) : Window :=
  { w with tooltips := w.tooltips.map fun t => { t with stuck := true } }

/-- The title of a window for a formalism. -/
def titleFor (formalism : Formalism) : Text := "Simulador - " ++ formalism.name

/-- The size that a canvas has for drawing when its own is not known. -/
def usualSize : Int × Int := (800, 600)

/-! ## The input -/

/-- The number of symbols of the input. -/
def inputSize (foreign : Option ForeignInput) (e : Engine) : Except Fault Nat :=
  match foreign.map ForeignInput.value with
  | none => .ok e.input.length
  | some (.arr items) => .ok items.length
  | some (.obj members) => .ok members.length
  | some _ => .error .unusableValue

/-- What is left of the input. Only a list of values can be cut like a text. -/
def inputRest (foreign : Option ForeignInput) (e : Engine) : Except Fault (List Json) :=
  match foreign.map ForeignInput.value with
  | none => .ok ((Text.singletons e.config.remaining).map .str)
  | some (.arr items) => .ok (items.drop e.config.cursor.toNat)
  | some _ => .error .unusableValue

/-- The cells of the tape. -/
def tapeCells (foreign : Option ForeignInput) (e : Engine) : List Json :=
  (foreign.bind ForeignInput.cells).getD (e.config.tape.cells.map .str)

/-- What a transition has to read where the engine stands : what is no text is read by none. -/
def visible? (foreign : ForeignInput) (e : Engine) : Except Fault (Option Text) :=
  if e.automaton.formalism = .tm then
    match foreign.cells.map fun cells => cells[e.config.head.toNat]? with
    | some (some cell) => .ok cell.str?
    | _ => .ok (some e.config.scanned)
  else do
    let rest ← inputRest foreign e
    return rest.head?.bind Json.str?

/-- The transitions that apply where the engine stands. -/
def applicable (foreign : Option ForeignInput) (e : Engine) : Except Fault (List Transition) :=
  match foreign, e.config.state with
  | some foreign, some state => do
    let symbol ← visible? foreign e
    Choice.applicable e.automaton.formalism e.automaton.transitions state symbol
      e.config.stack.top?
  | _, _ => e.applicable

/-! ## The panels -/

/-- The text about the automaton. -/
def infoText (a : Automaton) : Text :=
  a.formalism.name ++ " com " ++ toString a.states.length ++ " estados ("
    ++ toString a.finalStates.length ++ " finais) e " ++ toString a.transitions.length
    ++ " transições"

/-- The text about how far the run has come. -/
def metricsText (foreign : Option ForeignInput) (e : Engine) : Except Fault Text := do
  let progress ←
    if e.automaton.formalism = .tm then pure ("Cabeça: " ++ toString e.config.head)
    else do
      let size ← inputSize foreign e
      pure ("Consumido: " ++ toString (min e.consumed size) ++ "/" ++ toString size)
  return "Passos: " ++ toString e.steps ++ "    " ++ progress

/-- The text about the transitions that apply. -/
def availableText (foreign : Option ForeignInput) (e : Engine) : Except Fault Text := do
  let ts ← applicable foreign e
  let texts := ts.map fun (t : Transition) => t.label.text ++ " → " ++ t.target
  return "Transições: " ++ (if texts.isEmpty then "nenhuma" else Text.join ", " texts : Text)

/-- The words for a status. -/
def statusText : Status → Text
  | .ready => "Pronto"
  | .running => "Executando"
  | .accepted => "Aceito ✓"
  | .rejected => "Rejeitado ✗"
  | .stuck => "Parada: sem transição"

/-- The text of the status bar : a run that is made step by step shows the number of its step. -/
def statusBar (e : Engine) : Text :=
  if e.status = .running ∧ e.running = false then "Passo " ++ toString e.steps
  else statusText e.status

/-! ## Drawing -/

/-- What the diagram of an engine shows in a window. -/
def scene (w : Window) (e : Engine) : Diagram.Scene where
  automaton := e.automaton
  places := w.places
  size := w.room.canvasSize.getD usualSize
  current := e.config.state
  highlight := w.highlight
  status := e.status

/-- The window with a new diagram. -/
def drawDiagram (e : Engine) (w : Window) : Except Fault Unit × Window :=
  let (items, fault) := Diagram.draw (w.scene e)
  (fault.elim (.ok ()) .error, { w with canvas := items })

/-- What the memory strip of an engine shows in a window. -/
def memoryContents (w : Window) (e : Engine) : MemoryStrip.Contents where
  formalism := e.automaton.formalism
  stack := e.config.stack.items
  tape := tapeCells w.foreign e
  head := e.config.head
  rest := inputRest w.foreign e

/-- The window with a new memory strip. -/
def drawMemory (e : Engine) (w : Window) : Except Fault Unit × Window :=
  let (items, fault) := MemoryStrip.draw (w.memoryContents e)
  (fault.elim (.ok ()) .error, { w with memory := items })

/-- The window with new panels and a new status bar. -/
def fillPanels (e : Engine) (w : Window) : Except Fault Unit × Window :=
  let w := { w with info := infoText e.automaton }
  match metricsText w.foreign e with
  | .error fault => (.error fault, w)
  | .ok metrics =>
    let w := { w with metrics := metrics }
    match availableText w.foreign e with
    | .error fault => (.error fault, w)
    | .ok available =>
      (.ok (), { w with
        available := available
        status := statusBar e
        statusColour := some (e.status.colour?.getD "black") })

/-- Two parts of a drawing, the second one if the first one could be completed. -/
def andThen (first second : Window → Except Fault Unit × Window) (w : Window) :
    Except Fault Unit × Window :=
  match first w with
  | (.error fault, w) => (.error fault, w)
  | (.ok (), w) => second w

/-- The window as it shows the engine, and why it is not complete if it is not. -/
def redraw (e : Engine) : Window → Except Fault Unit × Window :=
  andThen (drawDiagram e) (andThen (drawMemory e) (fillPanels e))

end Window

end AutomatonLab
