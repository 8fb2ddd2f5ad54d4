import AutomatonLab.Icon.Basic
import AutomatonLab.Launcher.Basic
import AutomatonLab.Toolkit.Call

/-!
# How the launcher is put together

`Launcher.layout` is the program that makes the widgets of the launcher, up to the start of the
event loop. `Launcher.titleItems` is the title, drawn with a glow.
-/

namespace AutomatonLab.Launcher

open Layout

/-- The ground of a widget that was given none. -/
def plainGround : Json := .str "#d9d9d9"

/-- A name of the toolkit's own font. -/
def titleFont (size : Nat) : Font := ⟨"Helvetica", size, true, true⟩

/-- The pictures of the logo; one of them becomes the icon of the window, if it can. -/
def logo (root : Text) (iconError : Option Text) : Layout Unit := do
  let picture ← image 80
  let icon ← image 32
  if iconError.isNone then call "iconphoto" root [.bool true, .str icon] []
  let label ← widget "Label" root [("image", .str picture), ("bg", plainGround)]
  call "place" label []
    [("relx", .float (Binary64.ofDecimal false 1 0)), ("y", .int 10), ("x", .int (-10)),
      ("anchor", .str "ne")]

/-- The option for a simulator, a frame with a label. -/
def menuOption (frame : Text) (formalism : Formalism) : Layout Unit := do
  let (ground, ink) := optionColours false
  let option ← widget "Frame" frame [("bg", .str ground)]
  pack option [("pady", .int 10), ("fill", .str "x")]
  let label ← widget "Label" option
    [("text", .str (optionText formalism)), ("bg", .str ground), ("fg", .str ink),
      ("font", (Font.strong "Helvetica" 12).toJson), ("pady", .int 25), ("cursor", .str "hand2")]
  pack label [("fill", .str "x")]
  bind option "<Enter>"
  bind option "<Leave>"
  bind option "<Button-1>"
  bind label "<Button-1>"

/-- The launcher, up to the start of the event loop. -/
def layout (iconError : Option Text) : Layout Unit := do
  let root ← create "Tk" [] []
  call "set_theme" "sv_ttk" [.str "light"] []
  call "title" root [.str title] []
  call "geometry" root [.str "500x600"] []
  call "eval" root [.str "tk::PlaceWindow . center"] []
  let frame ← widget "Frame" root [("padx", .int 20), ("pady", .int 20)]
  pack frame [("expand", .bool true)]
  logo root iconError
  let canvas ← widget "Canvas" frame
    [("height", .int 60), ("bg", plainGround), ("highlightthickness", .int 0)]
  pack canvas [("pady", pair 0 5)]
  let label ← widget "ttk.Label" frame
    [("text", .str "Selecione o Simulador"), ("font", (titleFont 16).toJson)]
  pack label [("pady", pair 0 25)]
  Formalism.all.forM (menuOption frame)
  call "mainloop" root [] []

/-- The title at `(x, y)` in a colour. -/
def titleItem (x y : Int) (colour : Text) : Item Int where
  kind := .text
  coords := [x, y]
  style :=
    { text := some (.str "Autômatos")
      font := some (titleFont 26)
      fill := some colour
      anchor := some "center" }

/-- The title with its glow. -/
def titleItems : List (Item Int) :=
  [titleItem 199 29 "#ffc107", titleItem 201 31 "#ffc107", titleItem 198 28 "#ffc107",
    titleItem 202 32 "#ffc107", titleItem 200 30 "white"]

end AutomatonLab.Launcher
