import AutomatonLab.Catalog
import AutomatonLab.Icon.Basic
import AutomatonLab.Toolkit.Call
import AutomatonLab.Window.Basic

/-!
# How a simulator window is put together

`Window.layout` is the program that makes the widgets of a window, from the toolbar at the top to
the status bar at the bottom, and fills them with the first example of a formalism.
-/

namespace AutomatonLab.Window

open Layout

/-- The names of the widgets that show the engine. -/
structure Widgets where
  canvas : Text
  info : Text
  metrics : Text
  available : Text
  status : Text

/-- The font of what can be read beside the diagram. -/
def smallFont (size : Nat) : Json := (Font.plain "Helvetica" size).toJson

/-- The font of a heading. -/
def strongFont (size : Nat) : Json := (Font.strong "Helvetica" size).toJson

/-- A menu with the given entries, and the button that opens it. -/
def menu (toolbar title : Text) (labels : List Text) : Layout Unit := do
  let menu ← widget "Menu" toolbar [("tearoff", .int 0)]
  labels.forM (command menu)
  let button ← widget "ttk.Menubutton" toolbar [("text", .str title)]
  config button [("menu", .str menu)]
  pack button [("side", .str "left"), ("padx", .int 2)]

/-- The toolbar, with the label about the automaton. -/
def toolbar (window : Text) : Layout Text := do
  let bar ← widget "Frame" window []
  pack bar [("side", .str "top"), ("fill", .str "x"), ("padx", .int 10), ("pady", pair 5 10)]
  menu bar "Arquivo" ["Abrir...", "Salvar Como..."]
  menu bar "Exemplos" (Catalog.examples.map Example.title)
  let info ← widget "ttk.Label" bar [("text", .str ""), ("font", strongFont 11)]
  pack info [("side", .str "right"), ("padx", .int 10)]
  return info

/-- The canvas of the diagram, with the log and the panels beside it. -/
def body (window : Text) : Layout (Text × Text × Text) := do
  let body ← widget "Frame" window []
  pack body [("fill", .str "both"), ("expand", .bool true), ("padx", .int 10)]
  let canvas ← widget "Canvas" body [("bg", .str "white")]
  pack canvas [("side", .str "left"), ("fill", .str "both"), ("expand", .bool true)]
  let side ← widget "Frame" body [("width", .int 260)]
  pack side [("side", .str "right"), ("fill", .str "y"), ("padx", pair 10 0)]
  let title ← widget "ttk.Label" side [("text", .str "Registro"), ("font", strongFont 10)]
  pack title [("anchor", .str "w")]
  let log ← widget "Listbox" side [("height", .int logSize), ("width", .int 38),
    ("font", (Font.plain "Courier" 9).toJson)]
  pack log [("fill", .str "x")]
  let metrics ← widget "ttk.Label" side [("text", .str ""), ("font", smallFont 10)]
  pack metrics [("anchor", .str "w"), ("pady", pair 8 0)]
  let available ← widget "ttk.Label" side
    [("text", .str ""), ("font", smallFont 10), ("wraplength", .int 250)]
  pack available [("anchor", .str "w"), ("pady", pair 8 0)]
  return (canvas, metrics, available)

/-- One button of the bottom bar, with its hint. -/
def commandButton (bar image : Text) : Layout Unit := do
  let button ← widget "ttk.Button" bar
    [("image", .str image), ("command", .str "<callback>"), ("style", .str "Toolbutton")]
  pack button [("side", .str "left"), ("padx", .int 2)]
  bindToo button "<Enter>"
  bindToo button "<Leave>"

/-- The entry of the input, the buttons and the memory strip. -/
def bottomBar (window : Text) (images : List Text) : Layout Unit := do
  let bar ← widget "Frame" window []
  pack bar [("side", .str "bottom"), ("fill", .str "x"), ("padx", .int 10), ("pady", .int 10)]
  let label ← widget "ttk.Label" bar [("text", .str "Entrada:"), ("font", smallFont 10)]
  pack label [("side", .str "left")]
  let entry ← widget "ttk.Entry" bar [("width", .int 30), ("font", smallFont 11)]
  pack entry [("side", .str "left"), ("padx", .int 5), ("ipady", .int 5)]
  images.forM (commandButton bar)
  let memory ← widget "Canvas" bar [("height", .int 75), ("bg", .str "#f0f0f0"),
    ("highlightthickness", .int 1), ("highlightbackground", .str "#cccccc")]
  pack memory [("side", .str "left"), ("fill", .str "x"), ("expand", .bool true),
    ("padx", .int 10)]

/-- The status bar. -/
def statusLine (window : Text) : Layout Text := do
  let status ← widget "Label" window [("text", .str "Pronto"), ("anchor", .str "w"),
    ("relief", .str "sunken"), ("padx", .int 5)]
  pack status [("side", .str "bottom"), ("fill", .str "x")]
  return status

/-- The pictures of all icons, in their order. -/
def icons (size : Nat) : Layout (List (Text × Text)) :=
  Icon.all.mapM fun i => do return (i.name, ← image size)

/-- The widgets of a window for a formalism, empty yet. -/
def widgets (window : Text) (formalism : Formalism) : Layout Widgets := do
  call "title" window [.str (titleFor formalism)] []
  call "geometry" window [.str "1100x750"] []
  let images ← icons Icon.defaultSize
  let info ← toolbar window
  let (canvas, metrics, available) ← body window
  bottomBar window ((images.take Button.hints.length).map Prod.snd)
  let status ← statusLine window
  bind canvas "<Configure>"
  return ⟨canvas, info, metrics, available, status⟩

/-- The calls that bring the widgets in line with what the window shows. -/
def fill (ws : Widgets) (w : Window) : Layout Unit := do
  call "title" w.name [.str w.title] []
  config ws.info [("text", .str w.info)]
  config ws.metrics [("text", .str w.metrics)]
  config ws.available [("text", .str w.available)]
  config ws.status (("text", .str w.status) ::
    w.statusColour.toList.map fun c => ("fg", .str c))

/-- A window, which shows what it shows when it has just been opened. -/
def layout (formalism : Formalism) (w : Window) : Layout Unit := do
  let window ← create "Toplevel" [] []
  fill (← widgets window formalism) w

end AutomatonLab.Window
