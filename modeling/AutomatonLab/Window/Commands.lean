import AutomatonLab.Automaton.Source
import AutomatonLab.Reply
import AutomatonLab.Window.Basic

/-!
# Commands of the simulator window

The buttons and the menus of a window send commands to its engine (`WindowCommand`). The engine
tells the window of every step : the window shows it, and asks for a timer that ends the display
(`WindowControl.onStep`, `WindowControl.settle`). Only then is the step confirmed, so that an
automatic run waits for the display. A new run or a new automaton ends the display at once.
-/

namespace AutomatonLab

/-- A call on the engine of a window. -/
abbrev WindowControl := Control Window

namespace WindowControl

open Control

/-- How long a step is displayed, in milliseconds. -/
def displayTime : Int := 300

/-- The window as it stands. -/
def window : WindowControl Window := Desk.outside <$> get

/-- The window changes, and the engine does not. -/
def updateWindow (f : Window → Window) : WindowControl Unit :=
  modify fun d => { d with outside := f d.outside }

/-- Everything is drawn again. -/
def redraw : WindowControl Unit :=
  ExceptT.mk fun d =>
    let (result, w) := d.outside.redraw d.engine
    (result, { d with outside := w })

/-- A row is added to the log of the window. -/
def logRow (text : Text) (colour : Option Text) : WindowControl Unit := do
  update fun d => d.note [Decision.debug text]
  updateWindow fun w => w.addRow text colour

/-- All rows of the log of the window are gone. -/
def clearRows : WindowControl Unit := updateWindow fun w => { w with rows := [] }

/-- The text of the status bar changes, and its colour stays. -/
def say (text : Text) : WindowControl Unit := updateWindow fun w => { w with status := text }

/-- An error box is shown. -/
def showError (title text : Text) : WindowControl Unit :=
  updateWindow fun w => { w with dialogs := w.dialogs ++ [(title, text)] }

/-! ## Steps and their display -/

/-- A timer is asked for that ends the display of a step. -/
def askSettle (generation : Nat) : WindowControl Unit :=
  modify fun d =>
    match d.agenda with
    | none => d
    | some g =>
      let g := g.add displayTime d.owner (.settle generation)
      { d with agenda := some g, outside := { d.outside with settle := some g.issued } }

/-- The colour of the row about the end of a run. -/
def endColour (status : Status) : Text :=
  if status = .accepted then "#16a34a" else "#dc2626"

/-- What the window does when the engine has made a step. -/
def onStep (ev : Event) : WindowControl Unit := do
  match ev.transition with
  | none =>
    logRow (Window.statusText ev.status ++ " em " ++ ev.snapshot.state.getD "None" ++ ".")
      (some (endColour ev.status))
    redraw
  | some t =>
    updateWindow fun w => { w with highlight := some (t.source, t.target) }
    logRow (t.source ++ " → " ++ t.target ++ " usando " ++ t.label.text ++ ".") none
    redraw
    askSettle ev.generation

/-- The display of a step ends, and the step is confirmed. -/
def settle (generation : Nat) : WindowControl Unit := do
  updateWindow fun w => { w with settle := none, highlight := none }
  acknowledge onStep 0 (some generation)
  redraw

/-- The display of a step ends without a confirmation. -/
def cancelSettle : WindowControl Unit :=
  modify fun d =>
    { d with
      agenda := match d.outside.settle with
        | some handle => d.agenda.map fun g => g.cancel handle
        | none => d.agenda
      outside := { d.outside with settle := none, highlight := none } }

/-- A timer of the window is due. -/
def perform : Task → WindowControl Unit
  | .resume generation => resume onStep generation
  | .settle generation => settle generation

/-- A new run begins on a text. -/
def restart (input : Text) : WindowControl Unit := do
  cancelSettle
  reset (some input)
  updateWindow fun w => { w with foreign := none }

/-! ## Buttons -/

/-- The first button : an automatic run begins on the text of the entry. -/
def run : WindowControl Unit := do
  restart (← window).entry
  logRow ("Execução iniciada com entrada \"" ++ (← engine).input ++ "\".") none
  let _ ← Control.run onStep 0
  redraw

/-- The engine is at the end of a run, or its input is not the text of the entry. -/
def needsRestart (e : Engine) (w : Window) : Bool :=
  e.status.isTerminal || w.foreign.isSome || e.input != w.entry

/-- The second button : one step is made, unless one is on display. At the end of a run, or on
another text, it is the first one of a new run. -/
def step : WindowControl Unit := do
  if (← engine).inFlight then return
  if needsRestart (← engine) (← window) then restart (← window).entry
  logRow ("Passo manual " ++ toString ((← engine).steps + 1) ++ ".") none
  let _ ← Control.step onStep
  redraw

/-- The third button : an automatic run is interrupted. -/
def pause : WindowControl Unit := do
  if (← engine).running then
    Control.pause
    say "Pausado."

/-- The code of the formalism of the engine, in upper case. -/
def modeText : WindowControl Text :=
  return Text.upperCase (← engine).automaton.formalism.code

/-- The last button : a new run stands at its start, on the text of the entry. -/
def restartFromEntry : WindowControl Unit := do
  restart (← window).entry
  clearRows
  logRow ("Pronto no modo " ++ (← modeText) ++ ".") none
  say "Simulação reiniciada."
  redraw

/-! ## Installing an automaton -/

/-- What the window shows of an automaton that has just been installed, with the text of its
entry. -/
def present (a : Automaton) (entry : Text) : WindowControl Unit := do
  updateWindow fun w =>
    { w with
      title := Window.titleFor a.formalism
      entry := entry
      places := Diagram.circle a.states }
  clearRows
  logRow ("Pronto no modo " ++ Text.upperCase a.formalism.code ++ " a partir de "
    ++ a.start?.getD "None" ++ ".") none
  redraw

/-- A new run begins on a well-formed automaton, with a value as its input that is no text. A tape
cannot be filled with a value that has no elements, and this is noticed when the automaton has been
changed. -/
def loadForeign (a : Automaton) (v : Json) : WindowControl Unit := do
  updateEngine fun e => { e with automaton := a }
  if a.formalism = .tm then
    match v.elements? with
    | some cells =>
      reset (some "")
      updateWindow fun w => { w with foreign := some ⟨v, some cells⟩ }
    | none =>
      update Desk.cancelPending
      updateEngine fun e => { e with generation := e.generation + 1 }
      updateWindow fun w => { w with foreign := some ⟨v, w.foreign.bind ForeignInput.cells⟩ }
      throw .unusableValue
  else
    reset (some "")
    updateWindow fun w => { w with foreign := some ⟨v, none⟩ }

/-- A new run begins on a well-formed automaton with the given input; `null` keeps the input. -/
def loadInput (a : Automaton) : Json → WindowControl Unit
  | .str input => do
    load a (some input)
    updateWindow fun w => { w with foreign := none }
  | .null => do
    match (← window).foreign with
    | none => load a none
    | some old => loadForeign a old.value
  | v => loadForeign a v

/-- An automaton on which the engine has begun is shown, with an input that is no text. The entry is
cleared before the value is given to it, and nothing more is done if it is refused. -/
def enterForeign (a : Automaton) (v : Json) : WindowControl Bool := do
  updateWindow fun w => { w with title := Window.titleFor a.formalism, entry := "" }
  match (← window).room.entries.enter v with
  | .error fault => throw fault
  | .ok shown =>
    present a shown
    return true

/-- An automaton is installed with an input; the answer says whether it is. One that is not
well-formed is refused, after the display of the last step has ended. -/
def install (a : Automaton) (input : Json) : WindowControl Bool := do
  cancelSettle
  match a.validate with
  | .error defect =>
    showError "Autômato inválido" defect.message
    return false
  | .ok () =>
    loadInput a input
    match input with
    | .str entry =>
      present a entry
      return true
    | _ => enterForeign a input

/-! ## Menus -/

/-- An example is installed with its input. -/
def openExample (x : Example) : WindowControl Unit := do
  if ← install x.automaton (.str x.input) then
    say ("Exemplo '" ++ x.title ++ "' carregado.")

/-- The value and the automaton of a file. -/
def readFile (files : FileStore) (path : String) : Outcome (Json × Automaton) := do
  let text ← .ofExcept ((files.read path).mapError (.file path))
  let data ← .ofExcept ((Json.read text).mapError .notJson)
  return (data, ← Automaton.ofJson data)

/-- A fault with a file is one that an error box can tell of. A value of an unusable type and
values that are nested too deep are not. -/
def isExplained : Fault → Bool
  | .unusableValue => false
  | .notJson .tooDeep => false
  | _ => true

/-- The result of reading a file, or the text about what is wrong with it. -/
def explained {α : Type} (o : Outcome α) : Outcome (Except Text α) :=
  match o.result with
  | .ok a => ⟨.ok (.ok a), o.log⟩
  | .error fault =>
    ⟨if isExplained fault then .ok (.error fault.message) else .error fault, o.log⟩

/-- A file is opened, or an error box tells why it is not. Its automaton is installed with the value
of its input, or with no symbols if it has none. -/
def openFile (path : String) : WindowControl Unit := do
  if path.isEmpty then return
  match ← ofOutcome (explained (readFile (← window).room.files path)) with
  | .error text => showError "Erro Abrir" ("Falha:\n" ++ text)
  | .ok (data, a) =>
    if ← install a ((data.member? "input").getD (.str "")) then
      updateWindow fun w => { w with file := some path }
      say ("Arquivo '" ++ FileStore.baseName path ++ "' carregado.")

/-- The value of the file that keeps an automaton and the text of the entry. -/
def savedValue (a : Automaton) (entry : Text) : Json :=
  let input : Text × Json := ("input", .str entry)
  .obj (a.members ++ [input])

/-- An automaton is saved. If a file cannot keep its text, the file is left with a part of it. -/
def saveFile (path : String) : WindowControl Unit := do
  if path.isEmpty then return
  let w ← window
  let saved := savedValue (← engine).automaton w.entry
  match w.room.files.write path saved.storable with
  | .error .nullCharacter => throw (.file path .nullCharacter)
  | .error e => showError "Erro Salvar" ("Falha:\n" ++ e.message path)
  | .ok files =>
    updateWindow fun w => { w with room := { w.room with files := files } }
    if saved.write.toString?.isNone then throw .unstorable
    updateWindow fun w => { w with file := some path }
    say ("Salvo em '" ++ FileStore.baseName path ++ "'.")

/-! ## Hints -/

/-- The pointer comes to a button at `(x, y)` : its hint is shown. -/
def hover (i : Nat) (x y : Int) : WindowControl Unit :=
  updateWindow fun w =>
    match w.buttons[i]? with
    | some b =>
      if b.present then
        let geometry := "+" ++ toString (x + 15) ++ "+" ++ toString (y + 10)
        { w with
          tooltips := w.tooltips ++ [⟨geometry, b.hint, true, false⟩]
          buttons := w.buttons.set i { b with shown := some w.tooltips.length }
          room := { w.room with toplevels := w.room.toplevels + 1 } }
      else w
    | none => w

/-- The pointer leaves a button : the tooltip that the button shows goes away. -/
def leave (i : Nat) : WindowControl Unit :=
  updateWindow fun w =>
    match w.buttons[i]? with
    | some b =>
      { w with
        tooltips := match b.shown with
          | some n => w.tooltips.modify n fun t => if t.stuck then t else { t with alive := false }
          | none => w.tooltips
        buttons := w.buttons.set i { b with shown := none } }
    | none => w

end WindowControl

/-- What can be done with a window. -/
inductive WindowCommand where
  | enterText (text : Text)
  | click (button : Nat)
  | openExample (number : Nat)
  | openFile (path : String)
  | saveFile (path : String)
  | install (source : AutomatonSource) (input : Json)
  | resize (size : Option (Int × Int))
  | hover (button : Nat) (x y : Int)
  | leave (button : Nat)
  /-- A button is there no longer. -/
  | vanish (button : Nat)

namespace WindowCommand

open WindowControl

/-- Carries out a command. The answer to the installation of an automaton says whether it was
installed; the answer to a saved file is the text of the file. -/
def perform : WindowCommand → WindowControl Reply
  | enterText text => do
    updateWindow fun w => { w with entry := text }
    return .done
  | click 0 => do
    run
    return .done
  | click 1 => do
    step
    return .done
  | click 2 => do
    pause
    return .done
  | click 3 => do
    restartFromEntry
    return .done
  | click _ => return .done
  | openExample number => do
    if let some x := Catalog.examples[number]? then WindowControl.openExample x
    return .done
  | openFile path => do
    WindowControl.openFile path
    return .done
  | saveFile path => do
    WindowControl.saveFile path
    return .text (((← window).room.files.text path).toOption.map Text.ofString)
  | install source input => do
    return .flag (← WindowControl.install (← Control.ofOutcome source.build) input)
  | resize size => do
    updateWindow fun w => { w with room := { w.room with canvasSize := size } }
    redraw
    return .done
  | hover i x y => do
    WindowControl.hover i x y
    return .done
  | leave i => do
    WindowControl.leave i
    return .done
  | vanish i => do
    updateWindow fun w =>
      { w with buttons := w.buttons.modify i fun b => { b with present := false } }
    return .done

end WindowCommand

end AutomatonLab
