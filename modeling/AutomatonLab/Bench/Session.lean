import AutomatonLab.Bench.Edit

/-!
# Sessions with an engine

A session is a list of commands on an engine (`Command`). Listeners may be registered with it : each
follows a `Script`, which says on which of its calls it sends commands of its own to the engine, and
whether it refuses the event in the end. `Audience` is what lies outside the engine : the listeners,
their registrations, and what they have seen (`Sighting`). `Command.perform` carries out a command :
commands that listeners send may be nested `Command.maxNesting` deep, and the allowance bounds how
many steps one loop of the engine may make.
-/

namespace AutomatonLab

mutual

/-- What can be asked of an engine, or of the listeners around it. -/
inductive Command where
  | step
  | decide
  | run
  | pause
  | reset (input : Option Text)
  | acknowledge (generation : Option Int)
  /-- An acknowledgement with the generation of the event that a listener is told of. -/
  | acknowledgeEvent
  | load (source : AutomatonSource) (input : Option Text)
  /-- The timer with the given handle is due, or the one with the smallest. -/
  | fire (handle : Option Nat)
  | fireAll (limit : Nat)
  | listen (id : Text) (script : Script)
  | unlisten (id : Text)
  | edit (edit : Edit)
  | history
  | content
  | applicable
  | delays
  | setMaxSteps (n : Option Int)
  | setManualAck (b : Bool)

/-- How a listener behaves : from its call number `skip` on, counted from zero, and as often as
`times` says, it sends `commands` and then refuses the event with the text `refusal`. -/
inductive Script where
  | mk (skip : Int) (times : Option Int) (commands : List Command) (refusal : Option Text)

end

/-- The word for a command in what a listener reports. -/
def Command.name : Command → Text
  | step => "step"
  | decide => "decide"
  | run => "run"
  | pause => "pause"
  | reset _ => "reset"
  | acknowledge _ => "ack"
  | acknowledgeEvent => "ack"
  | load .. => "load"
  | fire _ => "fire"
  | fireAll _ => "fire_all"
  | listen .. => "listen"
  | unlisten _ => "unlisten"
  | edit _ => "edit"
  | history => "history"
  | content => "content"
  | applicable => "applicable"
  | delays => "delays"
  | setMaxSteps _ => "set_max_steps"
  | setManualAck _ => "set_manual_ack"

/-- A listener that does nothing. -/
def Script.passive : Script := .mk 0 none [] none

/-- A script that does nothing stands for one that is not there. -/
instance : Inhabited Script := ⟨.passive⟩

/-- A call of a listener is one of those on which it acts. -/
def Script.actsOn (call : Nat) : Script → Bool
  | .mk skip times _ _ => skip ≤ call && times.all fun n => (call : Int) < skip + n

/-- What a listener does when it is told of an event, in order. -/
def Script.commands : Script → List Command
  | .mk _ _ commands _ => commands

/-- The text with which a listener refuses the event at last, if it does. -/
def Script.refusal : Script → Option Text
  | .mk _ _ _ refusal => refusal

/-- A listener with its script, and how often it has been called. -/
structure Listener where
  id : Text
  script : Script
  calls : Nat

/-- What a listener saw : an event, or the answer to a command that it sent. -/
inductive Sighting where
  | event (id : Text) (event : Event)
  | reply (id command : Text) (reply : Reply)

/-- All listeners, those of them that are told, and what they have seen. -/
structure Audience where
  listeners : List Listener
  /-- The registered listeners; one that is registered twice is told twice. -/
  registered : List Text
  /-- What was seen, the last thing first. -/
  sightings : List Sighting

namespace Audience

/-- Nobody listens, and nothing has been seen. -/
def empty : Audience := ⟨[], [], []⟩

/-- The listener of the given name. -/
def listener? (u : Audience) (id : Text) : Option Listener :=
  u.listeners.find? fun l => l.id == id

/-- A listener is registered once more. Its script counts only the first time. -/
def register (u : Audience) (id : Text) (script : Script) : Audience :=
  { u with
    listeners :=
      if (u.listener? id).isSome then u.listeners else u.listeners ++ [⟨id, script, 0⟩]
    registered := u.registered ++ [id] }

/-- The first registration of a listener ends. -/
def unregister (u : Audience) (id : Text) : Audience :=
  { u with registered := u.registered.erase id }

/-- One more call of a listener is counted. -/
def countCall (u : Audience) (id : Text) : Audience :=
  { u with listeners := u.listeners.map fun l =>
      if l.id == id then { l with calls := l.calls + 1 } else l }

/-- One more thing has been seen. -/
def see (u : Audience) (s : Sighting) : Audience :=
  { u with sightings := s :: u.sightings }

end Audience

namespace Control

/-- The audience changes. -/
def updateAudience (f : Audience → Audience) : Control Audience Unit :=
  modify fun d => { d with outside := f d.outside }

/-- One listener is told of an event. -/
def tell (send : Command → Control Audience Reply) (ev : Event) (id : Text) :
    Control Audience Unit := do
  updateAudience fun u => u.see (.event id ev)
  match (← get).outside.listener? id with
  | none => return
  | some l =>
    updateAudience fun u => u.countCall id
    if l.script.actsOn l.calls then
      l.script.commands.forM fun c => do
        let reply ← send c
        updateAudience fun u => u.see (.reply id c.name reply)
      match l.script.refusal with
      | some text => throw (.listener text)
      | none => return

/-- All listeners that are registered now are told of an event. -/
def tellAll (send : Command → Control Audience Reply) (ev : Event) : Control Audience Unit := do
  (← get).outside.registered.forM (tell send ev)

end Control

namespace Command

open Control

/-- How deep commands may be nested. -/
def maxNesting : Nat := 190

/-- Carries out a command, sent while the listeners are told of `current` if there is one. Commands
that listeners send may be nested one level less deep than the number given. -/
def send (allowance : Nat) : Nat → Option Event → Command → Control Audience Reply
  | 0, _, _ => throw .tooDeep
  | depth + 1, current, command =>
    let notify : Notify Audience := fun ev => tellAll (send allowance depth (some ev)) ev
    match command with
    | step => .event <$> Control.step notify
    | decide => (fun ev => .event (some ev)) <$> Control.decide
    | run => .flag <$> Control.run notify allowance
    | pause => (fun _ => .done) <$> Control.pause
    | reset input => (fun _ => .done) <$> Control.reset input
    | acknowledge generation =>
      (fun _ => .done) <$> Control.acknowledge notify allowance generation
    | acknowledgeEvent =>
      (fun _ => .done) <$> Control.acknowledge notify allowance
        (current.map fun ev => (ev.generation : Int))
    | load source input => do
      let a ← ofOutcome source.build
      Control.load a input
      return .done
    | fire handle => .handle <$> Control.fire notify handle
    | fireAll limit => .count <$> Control.fireAll notify limit
    | listen id script => do
      updateAudience fun u => u.register id script
      return .done
    | unlisten id => do
      updateAudience fun u => u.unregister id
      return .done
    | edit e => do
      let (outcome, a) := e.perform (← engine).automaton
      updateEngine fun e => { e with automaton := a }
      ofOutcome outcome
    | history => return .events (← engine).history.toList
    | content => return .text (some (← engine).config.tape.content)
    | applicable => do
      match (← engine).applicable with
      | .ok ts => return .transitions ts
      | .error fault => throw fault
    | delays => return .numbers (((← get).agenda.map Agenda.delays).getD [])
    | setMaxSteps n => do
      updateEngine fun e => { e with maxSteps := n }
      return .done
    | setManualAck b => do
      updateEngine fun e => { e with manualAck := b }
      return .done

/-- Carries out a command that no listener sent. -/
def perform (allowance : Nat) (command : Command) : Control Audience Reply :=
  send allowance maxNesting none command

end Command

end AutomatonLab
