import AutomatonLab.Window.Desktop

/-!
# The launcher

The `Launcher` is the window that the program starts with : it offers a simulator for each
formalism, and an option is lit while the pointer is over it. Opening a simulator hides the
launcher, and closing one shows it again.
-/

namespace AutomatonLab

/-- The first window, which offers a simulator for each formalism, with all that was opened from
it. -/
structure Launcher where
  desktop : Desktop
  hidden : Bool
  /-- The options that are lit, by their numbers. -/
  lit : List Nat
  /-- The simulator windows that were closed, by their numbers. -/
  closed : List Nat

/-- What can be done with a launcher and its windows. -/
inductive LauncherCommand where
  | enter (option : Nat)
  | leave (option : Nat)
  | press (option : Nat)
  | close (window : Nat)
  | look (window : Nat) (command : DesktopCommand)

namespace Launcher

/-- The title of the launcher. -/
def title : Text := "Simulador de Autômatos"

/-- The colours of an option : its ground and its text. -/
def optionColours (lit : Bool) : Text × Text :=
  if lit then ("#007bff", "white") else ("#ffc107", "#212529")

/-- The text of an option. -/
def optionText (formalism : Formalism) : Text := "Simulador de " ++ formalism.name

/-- What the log says when the icon of the window cannot be set. -/
def iconNote (cause : Text) : LogEntry :=
  ⟨.warning, "Não foi possível definir o ícone: " ++ cause⟩

/-- The launcher when it has just been opened; `iconError` is why its icon could not be set. -/
def start (files : FileStore) (canvasSize : Option (Int × Int)) (iconError : Option Text)
    (entries : EntryRule := .textsOnly) : Launcher where
  desktop :=
    { Desktop.empty files canvasSize entries with log := iconError.toList.map iconNote }
  hidden := false
  lit := []
  closed := []

/-- A simulator is opened for the formalism of an option, and the launcher is hidden. -/
def press (l : Launcher) (option : Nat) : Except Fault Reply × Launcher :=
  match Formalism.all[option]? with
  | none => (.ok .done, l)
  | some formalism =>
    let (result, desktop) := l.desktop.openWindow formalism
    (result.map fun _ => .done, { l with desktop := desktop, hidden := true })

/-- Carries out a command. A launcher is shown again when a simulator is closed. -/
def perform (l : Launcher) : LauncherCommand → Except Fault Reply × Launcher
  | .enter option => (.ok .done, { l with lit := option :: l.lit })
  | .leave option => (.ok .done, { l with lit := l.lit.filter (· != option) })
  | .press option => l.press option
  | .close k =>
    (.ok .done,
      { l with desktop := l.desktop.closeWindow k, hidden := false, closed := k :: l.closed })
  | .look k command =>
    let (result, desktop) := l.desktop.perform k command
    (result, { l with desktop := desktop })

end Launcher

end AutomatonLab
