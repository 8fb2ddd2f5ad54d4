import AutomatonLab.Window.Commands

/-!
# Several windows

A `Desktop` has the simulator windows that were opened, with one agenda of timers, one log and one
room for all of them. A call on a window borrows what is shared and gives it back
(`Desktop.onWindow`). Whichever window is looked at, the timer that is due next is the next one of
all windows, and goes to its own window.
-/

namespace AutomatonLab

/-- The simulator windows and what they share. -/
structure Desktop where
  windows : List (Desk Window)
  agenda : Agenda
  room : Room
  /-- The log, the last entry first. -/
  log : List LogEntry

namespace Desktop

/-- A desktop without windows. -/
def empty (files : FileStore) (canvasSize : Option (Int × Int))
    (entries : EntryRule := .textsOnly) : Desktop :=
  ⟨[], .empty true, ⟨files, canvasSize, 0, entries⟩, []⟩

/-- The desk of a window with what is shared. -/
def lend (t : Desktop) (d : Desk Window) : Desk Window :=
  { d with agenda := some t.agenda, log := t.log, outside := { d.outside with room := t.room } }

/-- The desktop with what a window gives back. -/
def restore (t : Desktop) (k : Nat) (d : Desk Window) : Desktop where
  windows := t.windows.set k d
  agenda := d.agenda.getD t.agenda
  room := d.outside.room
  log := d.log

/-- A call on window number `k`. -/
def onWindow {α : Type} (t : Desktop) (k : Nat) (call : WindowControl α) :
    Except Fault α × Desktop :=
  match t.windows[k]? with
  | none => (.error .unusableValue, t)
  | some d =>
    let (result, d) := Control.exec call (t.lend d)
    (result, t.restore k d)

/-- The desk of a new window with an automaton, before the window shows anything. -/
def newDesk (t : Desktop) (a : Automaton) (input : Text) : Except Fault (Desk Window) :=
  let room := { t.room with toplevels := t.room.toplevels + 1 }
  Desk.start a input Engine.defaultDelay true (some Engine.defaultMaxSteps) none
    t.windows.length (Window.blank ("Toplevel" ++ toString room.toplevels) room)

/-- A new window, with the first example of a formalism. There is none for an unknown formalism. -/
def openWindow (t : Desktop) (formalism : Formalism) : Except Fault Unit × Desktop :=
  match formalism with
  | .other code => (.error (.missingKey code), t)
  | formalism =>
    let x := Catalog.initial formalism
    match t.newDesk x.automaton x.input with
    | .error fault => (.error fault, t)
    | .ok d =>
      let opened : Desktop :=
        { t with windows := t.windows ++ [d], room := d.outside.room, log := d.log ++ t.log }
      opened.onWindow t.windows.length (WindowControl.present x.automaton x.input)

/-- The tooltips of all windows do not go away any more. -/
def jam (t : Desktop) : Desktop :=
  { t with
    windows := t.windows.map fun d => { d with outside := d.outside.jam } }

/-- The timers of a window end with it. -/
def closeWindow (t : Desktop) (k : Nat) : Desktop :=
  { t with agenda := t.agenda.dismiss k }

/-- A timer is due. -/
def due (t : Desktop) (j : Job) : Except Fault Unit × Desktop :=
  { t with agenda := t.agenda.elapse j }.onWindow j.owner (WindowControl.perform j.task)

/-- The timer that is due next is due; the answer is its handle. -/
def fire (t : Desktop) : Except Fault (Option Nat) × Desktop :=
  match t.agenda.soonest? with
  | none => (.ok none, t)
  | some j =>
    let (result, t) := t.due j
    (result.map fun _ => some j.handle, t)

/-- Timers are due one after the other, at most `limit` of them; the answer is their number. -/
def fireAll (t : Desktop) : Nat → Except Fault Nat × Desktop
  | 0 => (.ok 0, t)
  | limit + 1 =>
    match t.agenda.soonest? with
    | none => (.ok 0, t)
    | some j =>
      match t.due j with
      | (.error fault, t) => (.error fault, t)
      | (.ok (), t) =>
        let (result, t) := fireAll t limit
        (result.map (· + 1), t)

end Desktop

/-- What can be done while a window is looked at. -/
inductive DesktopCommand where
  | window (command : WindowCommand)
  /-- The tooltips do not go away any more. -/
  | jam
  | fire
  | fireAll (limit : Nat)

namespace Desktop

/-- Carries out a command while window number `k` is looked at. The error boxes of earlier commands
are gone. -/
def perform (t : Desktop) (k : Nat) : DesktopCommand → Except Fault Reply × Desktop
  | .window command => t.onWindow k command.perform
  | .jam => (.ok .done, t.jam)
  | .fire =>
    let (result, t) := t.fire
    (result.map .handle, t)
  | .fireAll limit =>
    let (result, t) := t.fireAll limit
    (result.map .count, t)

/-- The desktop without the log and the error boxes of earlier commands. -/
def settled (t : Desktop) : Desktop :=
  { t with
    log := []
    windows := t.windows.map fun d => { d with outside := { d.outside with dialogs := [] } } }

end Desktop

end AutomatonLab
