import AutomatonLab.Engine.Agenda
import AutomatonLab.Engine.Basic

/-!
# An engine at its desk

A `Desk` is an engine with what surrounds it : the timers, if there are any, the log, and a part
`outside` that belongs to whoever watches the engine. The functions here change the desk without
telling anybody; `Control` adds the calls that send an event to the outside.
-/

namespace AutomatonLab

/-- An engine with what a call on it can reach beside it : timers, the log, and what lies
outside. -/
structure Desk (σ : Type) where
  engine : Engine
  agenda : Option Agenda
  /-- The name under which the engine asks for timers. -/
  owner : Nat
  /-- The log, the last entry first. -/
  log : List LogEntry
  outside : σ

namespace Desk

variable {σ : Type}

/-- The desk with more entries at the end of its log. -/
def note (d : Desk σ) (entries : List LogEntry) : Desk σ :=
  { d with log := entries.reverse ++ d.log }

/-- An engine at the start of its first run, on a well-formed automaton. -/
def start (a : Automaton) (input : Text) (delay : Int) (manualAck : Bool) (maxSteps : Option Int)
    (agenda : Option Agenda) (owner : Nat) (outside : σ) : Except Fault (Desk σ) := do
  a.validate.mapError .malformed
  let e := Engine.new a input delay manualAck maxSteps
  return { engine := e, agenda := agenda, owner := owner, log := [e.readyNote], outside := outside }

/-- The timer that continues the automatic run is cancelled. -/
def cancelPending (d : Desk σ) : Desk σ :=
  { d with
    agenda := match d.engine.pending with
      | some handle => d.agenda.map fun g => g.cancel handle
      | none => d.agenda
    engine := { d.engine with pending := none } }

/-- A new run begins. -/
def reset (d : Desk σ) (input : Option Text) : Desk σ :=
  let d := d.cancelPending
  let e := d.engine.restarted input
  { d with engine := e }.note [e.readyNote]

/-- A new run begins on another automaton, which must be well-formed. -/
def load (d : Desk σ) (a : Automaton) (input : Option Text) : Except Fault (Desk σ) := do
  a.validate.mapError .malformed
  return { d with engine := { d.engine with automaton := a } }.reset input

/-- The automatic run stops, and the step in flight stays so. -/
def pause (d : Desk σ) : Desk σ :=
  { d with engine := { d.engine with running := false } }.cancelPending

/-- What the log says when the limit of `n` transitions stops an automatic run. -/
def limitNote (n : Int) : LogEntry :=
  ⟨.warning, "Limite de " ++ toString n ++ " passos atingido; execução automática pausada."⟩

/-- The automatic run stops if the number of transitions has reached the limit. -/
def observeLimit (d : Desk σ) : Desk σ :=
  if d.engine.atLimit then
    { d with engine := { d.engine with running := false } }.note
      (d.engine.maxSteps.toList.map limitNote)
  else d

/-- A timer is asked for. -/
def askTimer (d : Desk σ) (g : Agenda) : Desk σ :=
  let g := g.add d.engine.delay d.owner (.resume d.engine.generation)
  { d with agenda := some g, engine := { d.engine with pending := some g.issued } }

/-- An automatic run is to go on by a timer, unless one is running already, the run has ended, or
the limit is reached. -/
def scheduleNext (d : Desk σ) : Desk σ :=
  match d.agenda with
  | none => d
  | some g =>
    if d.engine.pending.isSome || !d.engine.running || d.engine.status.isTerminal then d
    else if d.engine.atLimit then d.observeLimit
    else d.askTimer g

/-- One decision is made and recorded, and nobody is told. A run that has ended stays as it is, and
its event is not recorded again. -/
def decide (d : Desk σ) : Except Fault Event × Desk σ :=
  let e := d.engine
  if e.status.isTerminal then (.ok (e.event none), d)
  else match e.config.decision e.automaton with
    | .error fault => (.error fault, { d with engine := { e with status := .running } })
    | .ok decision =>
      let (after, taken) := match decision with
        | .take t => (e.taking t, some t)
        | .halt status => (e.halting status, none)
      let ev := after.event taken
      (.ok ev, { d with engine := after.record ev }.note (decision.notes e.automaton e.config))

/-- A transition is in flight from now on, if it has to be acknowledged. -/
def launch (d : Desk σ) (ev : Event) : Desk σ :=
  if ev.transition.isSome && d.engine.manualAck then
    { d with engine := { d.engine with inFlight := true } }
  else d

/-- An automatic run that is not waiting for a confirmation goes on by a timer. -/
def goOn (d : Desk σ) : Desk σ :=
  if d.engine.running && !d.engine.inFlight then d.scheduleNext else d

/-- The text of the log about a step that is not made because another one is in flight. -/
def busyNote : LogEntry :=
  Decision.debug "Passo ignorado: o passo anterior ainda não foi concluído."

/-- The text of the log about an acknowledgement of another run. -/
def staleNote (generation : Int) : LogEntry :=
  Decision.debug ("Confirmação obsoleta ignorada (geração " ++ toString generation ++ ").")

/-- The text of the log about the start of an automatic run. -/
def runNote (e : Engine) : LogEntry :=
  Decision.debug ("Execução iniciada com entrada " ++ Text.quoted e.input ++ ".")

/-- The first entry of the log comes first. -/
def entries (d : Desk σ) : List LogEntry :=
  d.log.reverse

end Desk

end AutomatonLab
